import ApiCompiler.Proofs.Text.Digits
import ApiCompiler.Proofs.Text.Segments
import ApiCompiler.Tree.Pointer

/-!
Pointers and the paths they stand for. The pointer that a path is written as leads where the path
leads; and a pointer that leads somewhere stands for a path, as long as no position in it is written
in an unusual way.
-/

namespace ApiCompiler.Pointer

/-! Escaping. -/

theorem slash_not_mem_escape (segment : List Char) : '/' ∉ escape segment := by
  intro inside
  obtain ⟨c, -, inside⟩ := List.mem_flatMap.mp inside
  split at inside
  · simp at inside
  · split at inside
    · simp at inside
    · rename_i other
      exact other (List.mem_singleton.mp inside).symm

theorem escape_ne_nil {segment : List Char} (some : segment ≠ []) : escape segment ≠ [] := by
  obtain ⟨c, rest, rfl⟩ := List.exists_cons_of_ne_nil some
  rw [escape, List.flatMap_cons]
  split
  · simp
  · split <;> simp

/-- First the tildes are escaped, then the slashes. -/
theorem escape_eq_replace (segment : List Char) :
    escape segment = Text.replace ['/'] ['~', '1'] (Text.replace ['~'] ['~', '0'] segment) := by
  rw [Text.replace_singleton, Text.replace_singleton, List.flatMap_assoc, escape]
  congr 1
  funext c
  by_cases tilde : c = '~'
  · rw [if_pos tilde, if_pos tilde]
    rfl
  · rw [if_neg tilde, if_neg tilde, List.flatMap_singleton]

theorem replace_escape (segment : List Char) :
    Text.replace ['~', '1'] ['/'] (escape segment) = Text.replace ['~'] ['~', '0'] segment := by
  rw [Text.replace_singleton]
  induction segment with
  | nil => exact Text.replace_nil _ _
  | cons c rest ih =>
      have some : ['~', '1'] ≠ [] := List.cons_ne_nil _ _
      rw [List.flatMap_cons, ← ih, escape, List.flatMap_cons, ← escape]
      by_cases tilde : c = '~'
      · rw [if_pos tilde, if_pos tilde, List.cons_append, List.cons_append, List.nil_append,
          Text.replace_cons _ some (by simp), Text.replace_cons _ some (by simp)]
        rfl
      · rw [if_neg tilde, if_neg tilde]
        by_cases slash : c = '/'
        · rw [if_pos slash, Text.replace_append _ some, slash]
        · rw [if_neg slash, List.singleton_append, List.singleton_append,
            Text.replace_cons _ some (by simp [Ne.symm tilde])]

theorem replace_replace (segment : List Char) :
    Text.replace ['~', '0'] ['~'] (Text.replace ['~'] ['~', '0'] segment) = segment := by
  rw [Text.replace_singleton]
  induction segment with
  | nil => exact Text.replace_nil _ _
  | cons c rest ih =>
      have some : ['~', '0'] ≠ [] := List.cons_ne_nil _ _
      rw [List.flatMap_cons]
      by_cases tilde : c = '~'
      · rw [if_pos tilde, Text.replace_append _ some, ih, tilde]
        rfl
      · rw [if_neg tilde, List.singleton_append,
          Text.replace_cons _ some (by simp [Ne.symm tilde]), ih]

theorem unescape_escape (segment : List Char) : unescape (escape segment) = segment := by
  rw [unescape, replace_escape, replace_replace]

/-! Paths. -/

/-- One step down: to a member of an object, or to an item of a list. -/
inductive Step
  | member (name : String)
  | item (position : Nat)
  deriving DecidableEq

def Step.text : Step → List Char
  | .member name => name.toList
  | .item position => Text.decimal position

/-- A path leads from a value to one inside it. -/
inductive Leads : Value → List Step → Value → Prop
  | here (value : Value) : Leads value [] value
  | member {members : Members Value} {name : String} {inner target : Value} {path : List Step}
      (found : members.find? name = some inner) (onward : Leads inner path target) :
      Leads (.object members) (.member name :: path) target
  | item {items : List Value} {position : Nat} {inner target : Value} {path : List Step}
      (found : items[position]? = some inner) (onward : Leads inner path target) :
      Leads (.list items) (.item position :: path) target

/-- The pointer that a path is written as. -/
def ofPath (path : List Step) : List Char :=
  path.flatMap fun step => '/' :: escape step.text

section Written

variable {path : List Step}

theorem ofPath_eq_joinWith (some : path ≠ []) :
    ofPath path = '/' :: Text.joinWith ['/'] (path.map fun step => escape step.text) := by
  induction path with
  | nil => exact absurd rfl some
  | cons step path ih =>
      rw [ofPath, List.flatMap_cons, ← ofPath, List.map_cons]
      cases path with
      | nil => simp [ofPath, Text.joinWith]
      | cons next path =>
          rw [ih (List.cons_ne_nil next path),
            Text.joinWith_cons ['/'] (escape step.text) (by simp)]
          simp

/-- Only the slash that is put in front is trimmed, if the text neither begins nor ends with one. -/
theorem trimSlashes_cons {text : List Char} (first : ∀ c ∈ text.head?, c ≠ '/')
    (last : ∀ c ∈ text.getLast?, c ≠ '/') : trimSlashes ('/' :: text) = text := by
  have kept {text : List Char} (first : ∀ c ∈ text.head?, c ≠ '/') :
      text.dropWhile (fun c => decide (c = '/')) = text := by
    cases text with
    | nil => rfl
    | cons c rest => rw [List.dropWhile_cons_of_neg (by simpa using first c rfl)]
  have backwards : ∀ c ∈ text.reverse.head?, c ≠ '/' := by
    rwa [List.head?_reverse]
  rw [trimSlashes, List.dropWhile_cons_of_pos (by simp), kept first, kept backwards,
    List.reverse_reverse]

/-- Parts without a slash are told apart again, if the first and the last one are not empty. -/
theorem segments_joinWith {parts : List (List Char)} (clean : ∀ part ∈ parts, '/' ∉ part)
    (some : parts ≠ []) (first : ∀ part ∈ parts.head?, part ≠ [])
    (last : ∀ part ∈ parts.getLast?, part ≠ []) :
    segments ('/' :: Text.joinWith ['/'] parts) = parts.map unescape := by
  have begins : ∃ c, (Text.joinWith ['/'] parts).head? = Option.some c ∧ c ≠ '/' := by
    obtain ⟨part, later, rfl⟩ := List.exists_cons_of_ne_nil some
    obtain ⟨c, rest, rfl⟩ := List.exists_cons_of_ne_nil (first part rfl)
    refine ⟨c, Text.head?_joinWith (List.cons_ne_nil c rest), ?_⟩
    rintro rfl
    exact clean _ List.mem_cons_self List.mem_cons_self
  have ends : ∀ c ∈ (Text.joinWith ['/'] parts).getLast?, c ≠ '/' := by
    obtain ⟨earlier, part, rfl⟩ : ∃ earlier part, parts = earlier ++ [part] :=
      ⟨_, _, (List.dropLast_concat_getLast some).symm⟩
    rw [Text.getLast?_joinWith (last part List.getLast?_concat)]
    rintro c final rfl
    exact clean part (by simp) (List.mem_of_mem_getLast? final)
  obtain ⟨c, begins, plain⟩ := begins
  have long : Text.joinWith ['/'] parts ≠ [] := by
    intro empty
    rw [empty] at begins
    cases begins
  have trimmed : trimSlashes ('/' :: Text.joinWith ['/'] parts) = Text.joinWith ['/'] parts := by
    refine trimSlashes_cons (fun d first => ?_) ends
    rw [begins] at first
    exact Option.some.inj first ▸ plain
  rw [segments, if_neg (by simp [long]), trimmed, Text.splitAt_joinWith some clean]

theorem segments_ofPath (first : ∀ step ∈ path.head?, step.text ≠ [])
    (last : ∀ step ∈ path.getLast?, step.text ≠ []) :
    segments (ofPath path) = path.map Step.text := by
  by_cases some : path = []
  · rw [some]
    rfl
  · have clean : ∀ part ∈ path.map (fun step => escape step.text), '/' ∉ part := by
      intro part inside
      obtain ⟨step, -, rfl⟩ := List.mem_map.mp inside
      exact slash_not_mem_escape step.text
    have given {ends : Option Step} (filled : ∀ step ∈ ends, step.text ≠ []) :
        ∀ part ∈ ends.map (fun step => escape step.text), part ≠ [] := by
      intro part inside
      obtain ⟨step, met, rfl⟩ := Option.map_eq_some_iff.mp inside
      exact escape_ne_nil (filled step met)
    rw [ofPath_eq_joinWith some, segments_joinWith clean (by simpa using some)
      (by rw [List.head?_map]; exact given first)
      (by rw [List.getLast?_map]; exact given last), List.map_map]
    exact List.map_congr_left fun step _ => unescape_escape step.text

end Written

/-! Following a path. -/

theorem item?_natCast (items : List Value) (position : Nat) :
    item? items (position : Int) = items[position]? := by
  have forward : ¬(position : Int) < 0 := by omega
  rw [item?, if_neg forward, if_neg forward, Int.toNat_natCast]

theorem step?_decimal (items : List Value) {position : Nat}
    (small : (Text.decimal position).length ≤ Text.digitLimit) :
    step? (.list items) (Text.decimal position) = items[position]? := by
  rw [step?, Text.readInteger?_decimal, if_pos small, Option.bind_some, item?_natCast]

section Following

variable {root value : Value} {path : List Step}

theorem foldlM_step?_of_leads (leads : Leads root path value)
    (small : ∀ position, .item position ∈ path →
      (Text.decimal position).length ≤ Text.digitLimit) :
    (path.map Step.text).foldlM step? root = some value := by
  induction leads with
  | here value => rfl
  | member found onward ih =>
      rw [List.map_cons, List.foldlM_cons, Step.text, step?, String.ofList_toList, found]
      exact ih fun position inside => small position (List.mem_cons_of_mem _ inside)
  | item found onward ih =>
      rw [List.map_cons, List.foldlM_cons, Step.text,
        step?_decimal _ (small _ List.mem_cons_self), found]
      exact ih fun position inside => small position (List.mem_cons_of_mem _ inside)

/--
The pointer that a path is written as leads where the path leads. A first or a last name that is
empty would be lost with the slashes at the ends. A position may have as many digits as are converted
at all: no list that a machine can hold has positions with more.
-/
theorem resolve?_ofPath (leads : Leads root path value)
    (first : ∀ step ∈ path.head?, step.text ≠ []) (last : ∀ step ∈ path.getLast?, step.text ≠ [])
    (small : ∀ position, .item position ∈ path →
      (Text.decimal position).length ≤ Text.digitLimit) :
    resolve? root (ofPath path) = some value := by
  rw [resolve?, segments_ofPath first last]
  exact foldlM_step?_of_leads leads small

/-- Names that look escaped or like positions, and an empty one inside the path. -/
theorem resolve?_ofPath_crowded :
    let root : Value := .object [(.text "~1", .list [.null, .object [(.text "",
      .object [(.text "/~01", .object [(.text "0", .bool true)])])]])]
    let path : List Step :=
      [.member "~1", .item 1, .member "", .member "/~01", .member "0"]
    ofPath path = "/~01/1//~1~001/0".toList ∧ resolve? root (ofPath path) = some (.bool true) :=
  ⟨by decide, resolve?_ofPath
    (.member rfl (.item rfl (.member rfl (.member rfl (.member rfl (.here _))))))
    (by rintro step ⟨⟩; decide) (by rintro step ⟨⟩; decide) (by
      intro position inside
      have one : position = 1 := by simpa using inside
      rw [one]
      decide)⟩

end Following

/-! What a pointer leads to. -/

/-- An integer, but not written as the decimal digits of a position: signed, padded, blanks around. -/
def IsLoose (name : List Char) : Prop :=
  (Text.readInteger? name).isSome ∧ ∀ position, name ≠ Text.decimal position

/-- No name that comes to a list is an integer written loosely. -/
def Strict (root : Value) (names : List (List Char)) : Prop :=
  ∀ path items name later, Leads root path (.list items) →
    names = path.map Step.text ++ name :: later → ¬IsLoose name

section Leading

variable {root value : Value} {names : List (List Char)}

theorem Strict.member {members : Members Value} {name : String} {inner : Value}
    (strict : Strict (.object members) (name.toList :: names))
    (found : members.find? name = some inner) : Strict inner names := by
  rintro path items next later leads rfl
  exact strict (.member name :: path) items next later (.member found leads) rfl

theorem Strict.item {items : List Value} {position : Nat} {inner : Value}
    (strict : Strict (.list items) (Text.decimal position :: names))
    (found : items[position]? = some inner) : Strict inner names := by
  rintro path items' next later leads rfl
  exact strict (.item position :: path) items' next later (.item found leads) rfl

theorem item_of_step? {items : List Value} {name : List Char} {inner : Value}
    (found : step? (.list items) name = some inner) (tight : ¬IsLoose name) :
    ∃ position, name = Text.decimal position ∧ items[position]? = some inner := by
  rw [step?] at found
  obtain ⟨number, read, held⟩ := Option.bind_eq_some_iff.mp found
  obtain ⟨position, rfl⟩ : ∃ position, name = Text.decimal position := by
    by_contra! never
    exact tight ⟨Option.isSome_of_eq_some read, never⟩
  refine ⟨position, rfl, ?_⟩
  rw [Text.readInteger?_decimal] at read
  split at read
  · rwa [← Option.some.inj read, item?_natCast] at held
  · cases read

theorem leads_of_foldlM_step? (strict : Strict root names)
    (found : names.foldlM step? root = some value) :
    ∃ path, Leads root path value ∧ path.map Step.text = names := by
  induction names generalizing root with
  | nil => exact ⟨[], Option.some.inj found ▸ .here root, rfl⟩
  | cons name names ih =>
      rw [List.foldlM_cons] at found
      obtain ⟨inner, first, later⟩ := Option.bind_eq_some_iff.mp found
      cases root with
      | scalar value => cases first
      | object members =>
          obtain ⟨name, rfl⟩ : ∃ text : String, name = text.toList :=
            ⟨String.ofList name, String.toList_ofList.symm⟩
          rw [step?, String.ofList_toList] at first
          obtain ⟨path, onward, rfl⟩ := ih (strict.member first) later
          exact ⟨.member name :: path, .member first onward, rfl⟩
      | list items =>
          have tight := strict [] items name names (.here _) rfl
          obtain ⟨position, rfl, held⟩ := item_of_step? first tight
          obtain ⟨path, onward, rfl⟩ := ih (strict.item held) later
          exact ⟨.item position :: path, .item held onward, rfl⟩

/--
A pointer without loosely written positions leads only where the path that it spells leads, and
nowhere if there is no such path. How else an integer may be written is left to the reading of
integers.
-/
theorem resolve?_leads {pointer : List Char} (strict : Strict root (segments pointer)) :
    (∀ value, resolve? root pointer = some value →
      ∃ path, Leads root path value ∧ path.map Step.text = segments pointer) ∧
    ((∀ path value, Leads root path value → path.map Step.text ≠ segments pointer) →
      resolve? root pointer = none) := by
  have leads (value : Value) (found : resolve? root pointer = some value) :
      ∃ path, Leads root path value ∧ path.map Step.text = segments pointer :=
    leads_of_foldlM_step? strict found
  refine ⟨leads, fun nowhere => Option.eq_none_iff_forall_ne_some.mpr fun value found => ?_⟩
  obtain ⟨path, onward, spelled⟩ := leads value found
  exact nowhere path value onward spelled

end Leading

/-- A list on the way, and a position in it that is written in the usual way. -/
theorem resolve?_leads_item :
    let root : Value := .object [(.text "a/b", .list [.null, .text "x"])]
    resolve? root "/a~1b/1".toList = some (.text "x") ∧
      ∃ path, Leads root path (.text "x") ∧ path.map Step.text = segments "/a~1b/1".toList := by
  intro root
  have strict : Strict root (segments "/a~1b/1".toList) := by
    have names : segments "/a~1b/1".toList = ["a/b".toList, Text.decimal 1] := by decide
    rintro path items name later - spelled ⟨integer, loose⟩
    have inside : name ∈ segments "/a~1b/1".toList :=
      spelled ▸ List.mem_append_right _ List.mem_cons_self
    rw [names, List.mem_cons, List.mem_singleton] at inside
    rcases inside with rfl | rfl
    · exact absurd integer (by decide)
    · exact loose 1 rfl
  exact ⟨rfl, (resolve?_leads strict).1 (.text "x") rfl⟩

/-- A slash at the end is not an empty name: such a pointer leads somewhere that its text does not. -/
theorem trailing_slash_dropped :
    ¬∀ (root value : Value) (rest : List Char), resolve? root ('/' :: rest) = some value →
      ∃ path, Leads root path value ∧
        path.map Step.text = (Text.splitAt '/' rest).map unescape := by
  intro literal
  obtain ⟨path, leads, spelled⟩ :=
    literal (.object [(.text "a", .int 1)]) (.int 1) ['a', '/'] rfl
  have named : path.map Step.text = [['a'], []] := spelled.trans (by decide)
  cases leads with
  | member found onward =>
      rw [Members.find?] at found
      split at found
      · cases found
        cases onward with
        | here => exact absurd (congrArg List.length named) (by simp)
      · cases found

end ApiCompiler.Pointer
