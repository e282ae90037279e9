import ApiCompiler.Proofs.Script.Lines
import ApiCompiler.Proofs.Script.Literals

/-!
Places in a script: the brackets that are open, or a literal in which brackets mean nothing. Literals
are left again where they end, and steps whose lines close the brackets they open leave a place as
they found it.
-/

namespace ApiCompiler.Script

/-! Reading on. -/

/--
A place in code, within brackets that the characters close, or in a literal there that ends at a
mark, possibly right behind a backslash.
-/
inductive Place
  | code (closers : List Char)
  | literal (mark : Char) (escaped : Bool) (closers : List Char)
  deriving DecidableEq

def closer? (c : Char) : Option Char :=
  if c = '(' then some ')' else if c = '[' then some ']' else if c = '\x7b' then some '\x7d'
  else none

def isCloser (c : Char) : Bool :=
  c = ')' || c = ']' || c = '\x7d'

namespace Place

/--
The place behind a character, if it may stand there. A semicolon outside of all brackets is read as
the end of a statement and not here; a bracket must be the one that is open; a slash would begin what
no generated script has, and a quoted text does not go on in another line. An interpolation is no
place of its own: it belongs to its template, which ends at the next backtick.
-/
def next? : Place → Char → Option Place
  | .code closers, c =>
      match closer? c with
      | some closer => some (.code (closer :: closers))
      | none =>
          if c = '"' || c = '\x60' then some (.literal c false closers)
          else if isCloser c then if closers.head? = some c then some (.code closers.tail) else none
          else if c = '/' || c = '\x27' || (c = ';' && closers.isEmpty) then none
          else some (.code closers)
  | .literal mark true closers, _ => some (.literal mark false closers)
  | .literal mark false closers, c =>
      if c = mark then some (.code closers)
      else if c = '\n' && mark = '"' then none
      else some (.literal mark (c = '\\') closers)

def after? (place : Place) (text : List Char) : Option Place :=
  text.foldlM next? place

@[simp] theorem after?_nil (place : Place) : place.after? [] = some place := rfl

theorem after?_cons (place : Place) (c : Char) (text : List Char) :
    place.after? (c :: text) = (place.next? c).bind fun next => next.after? text := rfl

theorem after?_append (place : Place) (first second : List Char) :
    place.after? (first ++ second) = (place.after? first).bind fun next => next.after? second := by
  induction first generalizing place with
  | nil => rfl
  | cons c first ih =>
      rw [List.cons_append, after?_cons, after?_cons, Option.bind_assoc]
      exact congrArg _ (funext ih)

/-- The same place with more brackets open around it. -/
def within (around : List Char) : Place → Place
  | .code closers => .code (closers ++ around)
  | .literal mark escaped closers => .literal mark escaped (closers ++ around)

theorem next?_within {place next : Place} {c : Char} (leads : place.next? c = some next)
    (around : List Char) : (place.within around).next? c = some (next.within around) := by
  cases place with
  | literal mark escaped closers =>
      cases escaped with
      | true =>
          cases leads
          rfl
      | false =>
          simp only [next?, within] at leads ⊢
          split_ifs at leads ⊢ <;> cases leads <;> rfl
  | code closers =>
      simp only [next?, within] at leads ⊢
      split at leads
      · cases leads
        rfl
      · split_ifs at leads with opens closes open_ ends
        · cases leads
          simp [opens]
        · cases leads
          obtain ⟨closers, rfl⟩ := List.head?_eq_some_iff.mp open_
          simp [opens, closes]
        · cases leads
          have goesOn : ¬(c = '/' || c = '\x27' || (c = ';' && (closers ++ around).isEmpty)) = true := by
            intro stops
            refine ends ?_
            simp only [Bool.or_eq_true, Bool.and_eq_true, List.isEmpty_iff,
              List.append_eq_nil_iff] at stops ⊢
            exact stops.imp_right fun semicolon => ⟨semicolon.1, semicolon.2.1⟩
          simp [opens, closes, goesOn]

theorem after?_within {place next : Place} {text : List Char}
    (leads : place.after? text = some next) (around : List Char) :
    (place.within around).after? text = some (next.within around) := by
  induction text generalizing place with
  | nil =>
      cases leads
      rfl
  | cons c text ih =>
      rw [after?_cons] at leads ⊢
      obtain ⟨following, here, later⟩ := Option.bind_eq_some_iff.mp leads
      rw [next?_within here]
      exact ih later

end Place

/-! Code between brackets. -/

/-- A text of code that leads from some open brackets to others. -/
def Leads (front back text : List Char) : Prop :=
  Place.after? (.code front) text = some (.code back)

instance (front back text : List Char) : Decidable (Leads front back text) :=
  inferInstanceAs (Decidable (_ = _))

/-- A text that closes all brackets it opens. -/
abbrev Balanced (text : List Char) : Prop :=
  Leads [] [] text

namespace Leads

variable {first second third text more : List Char}

theorem nil : Leads first first [] := rfl

/-- A text that is given in full is read letter by letter. -/
theorem of_letters {text : String} {letters : List Char} (same : text = String.ofList letters)
    (leads : Leads first second letters) : Leads first second text.toList := by
  rw [same, String.toList_ofList]
  exact leads

theorem append (before : Leads first second text) (after : Leads second third more) :
    Leads first third (text ++ more) := by
  rw [Leads, Place.after?_append, before]
  exact after

/-- More brackets may be open around a text. -/
theorem within (leads : Leads first second text) (around : List Char) :
    Leads (first ++ around) (second ++ around) text :=
  Place.after?_within leads around

end Leads

/-- A character that means nothing to the place it stands at in code. -/
def isInert (c : Char) : Bool :=
  !"()[]\x7b\x7d\"\x27\x60;/".toList.contains c

theorem next?_of_isInert {c : Char} (inert : isInert c = true) (closers : List Char) :
    Place.next? (.code closers) c = some (.code closers) := by
  simp [isInert] at inert
  simp [Place.next?, closer?, isCloser, inert]

theorem balanced_of_isInert {text : List Char} (inert : ∀ c ∈ text, isInert c = true) :
    Balanced text := by
  induction text with
  | nil => rfl
  | cons c text ih =>
      obtain ⟨here, later⟩ := List.forall_mem_cons.mp inert
      rw [Balanced, Leads, Place.after?_cons, next?_of_isInert here]
      exact ih later

theorem isInert_of_isNamePart {c : Char} (part : isNamePart c = true) : isInert c = true := by
  have marks : "()[]\x7b\x7d\"\x27\x60;/".toList.all (fun d => !isNamePart d) = true := by
    decide +kernel
  rw [isInert, Bool.not_eq_true', Bool.eq_false_iff]
  intro special
  have other := List.all_eq_true.mp marks c (List.contains_iff_mem.mp special)
  rw [part] at other
  cases other

theorem isNamePart_of_isName {name : List Char} (whole : isName name = true) :
    ∀ c ∈ name, isNamePart c = true := by
  cases name with
  | nil => exact nofun
  | cons c name =>
      simp only [isName, Bool.and_eq_true, List.all_eq_true] at whole
      exact List.forall_mem_cons.mpr ⟨isNamePart_of_isNameStart whole.1, whole.2⟩

theorem balanced_of_isName {name : List Char} (whole : isName name = true) : Balanced name :=
  balanced_of_isInert fun c member => isInert_of_isNamePart (isNamePart_of_isName whole c member)

theorem balanced_of_isIdentifier {name : List Char}
    (identifier : Naming.isIdentifier name = true) : Balanced name :=
  balanced_of_isName (isName_of_isIdentifier identifier)

theorem balanced_intercalate {separator : String} (between : Balanced separator.toList)
    {texts : List String} (each : ∀ text ∈ texts, Balanced text.toList) :
    Balanced (String.intercalate separator texts).toList := by
  induction texts with
  | nil =>
      rw [String.intercalate_nil, String.toList_empty]
      exact .nil
  | cons first texts ih =>
      obtain ⟨here, later⟩ := List.forall_mem_cons.mp each
      cases texts with
      | nil =>
          rw [String.intercalate_singleton]
          exact here
      | cons second texts =>
          rw [String.intercalate_cons_cons, String.toList_append, String.toList_append]
          exact (here.append between).append (ih later)

/-! Literals. -/

/-- A part of a literal in which this does not end. -/
def Stays (mark : Char) (text : List Char) : Prop :=
  Place.after? (.literal mark false []) text = some (.literal mark false [])

theorem Stays.append {mark : Char} {first second : List Char} (before : Stays mark first)
    (after : Stays mark second) : Stays mark (first ++ second) := by
  rw [Stays, Place.after?_append, before]
  exact after

theorem Stays.flatMap {mark : Char} {quoted : Char → List Char} {text : List Char}
    (each : ∀ c ∈ text, Stays mark (quoted c)) : Stays mark (text.flatMap quoted) := by
  induction text with
  | nil => rfl
  | cons c text ih =>
      obtain ⟨here, later⟩ := List.forall_mem_cons.mp each
      exact here.append (ih later)

theorem stays_plain {mark c : Char} (goesOn : c ≠ mark) (unescaped : c ≠ '\\')
    (inLine : mark = '"' → c ≠ '\n') : Stays mark [c] := by
  have kept : ¬(c = '\n' ∧ mark = '"') := fun ends => inLine ends.2 ends.1
  rw [Stays, Place.after?_cons, Place.next?, if_neg goesOn, if_neg (by simpa using kept)]
  simp [unescaped]

theorem stays_escape {mark : Char} (other : mark ≠ '\\') (c : Char) : Stays mark ['\\', c] := by
  rw [Stays, Place.after?_cons, Place.next?, if_neg (Ne.symm other), if_neg (by simp)]
  rfl

theorem balanced_literal {mark : Char} {text : List Char} (stays : Stays mark text)
    (isMark : mark = '"' ∨ mark = '\x60') : Balanced (mark :: text ++ [mark]) := by
  have opens : Place.next? (.code []) mark = some (.literal mark false []) := by
    rcases isMark with rfl | rfl <;> rfl
  have ends : Place.next? (.literal mark false []) mark = some (.code []) := by
    rw [Place.next?, if_pos rfl]
  rw [Balanced, Leads, List.cons_append, Place.after?_cons, opens, Option.bind_some, Place.after?_append,
    stays, Option.bind_some, Place.after?_cons, ends]
  rfl

theorem stays_unitEscape {n : Nat} (control : n < 0x20) : Stays '"' (Text.unitEscape n) := by
  have each : ∀ n < 0x20, Text.unitEscape n = ['\\', 'u'] ++ Text.hexDigits 4 n ∧
      (Text.hexDigits 4 n).all (fun c => c ≠ '"' && c ≠ '\\' && c ≠ '\n') = true := by
    decide +kernel
  obtain ⟨letters, plain⟩ := each n control
  have digits : Stays '"' ((Text.hexDigits 4 n).flatMap fun c => [c]) := by
    refine Stays.flatMap fun c member => ?_
    have other := List.all_eq_true.mp plain c member
    simp only [Bool.and_eq_true, decide_eq_true_iff] at other
    obtain ⟨⟨quote, backslash⟩, inLine⟩ := other
    exact stays_plain quote backslash fun _ => inLine
  rw [letters]
  exact (stays_escape (by decide) 'u').append (by simpa using digits)

theorem stays_quoteChar (c : Char) : Stays '"' (Text.quoteChar c) := by
  rw [Text.quoteChar]
  cases short : Text.shortEscape? c with
  | some escape =>
      simp only [Text.shortEscape?] at short
      split_ifs at short <;> cases short <;> exact stays_escape (by decide) _
  | none =>
      obtain ⟨quote, backslash⟩ := Json.not_special_of_shortEscape? short
      dsimp only
      split
      · rename_i control
        exact stays_unitEscape control
      · rename_i printable
        refine stays_plain quote backslash fun _ => ?_
        rintro rfl
        exact printable (by decide)

theorem balanced_stringLiteral (text : String) : Balanced (stringLiteral text).toList := by
  have letters := toList_stringLiteral_append text []
  rw [List.append_nil] at letters
  rw [letters]
  exact balanced_literal (Stays.flatMap fun c _ => stays_quoteChar c) (.inl rfl)

theorem stays_templateChar (c : Char) : Stays '\x60' (templateChar c) := by
  rw [templateChar]
  split_ifs with backslash backtick
  · exact stays_escape (by decide) _
  · exact stays_escape (by decide) _
  · exact stays_plain backtick backslash fun quoted => absurd quoted (by decide)

/-- A path may hold anything: its template ends with it. -/
theorem balanced_templateLiteral (text : String) : Balanced (templateLiteral text).toList := by
  rw [templateLiteral, String.toList_ofList]
  exact balanced_literal (Stays.flatMap fun c _ => stays_templateChar c) (.inr rfl)

/-! Steps. -/

mutual
/--
Steps that write whole lines of code between brackets, and close all brackets they open. Statements may
end there.
-/
inductive Step.Closed : Step → Prop
  | line {text : String} (solid : IsSolid text)
      (inside : ∀ closer, Leads [closer] [closer] text.toList) : (Step.line text).Closed
  | blankLine : Step.blankLine.Closed
  | block {opener closer : String} {body : List Step} {last : Char} {others : List Char}
      (opens : IsSolid opener) (closes : IsSolid closer)
      (enters : Leads [] (last :: others) opener.toList)
      (leaves : ∀ outer, Leads (last :: others ++ [outer]) [outer] closer.toList)
      (within : AllClosed body) : (Step.block opener closer body).Closed

inductive AllClosed : List Step → Prop
  | nil : AllClosed []
  | cons {first : Step} {rest : List Step} : first.Closed → AllClosed rest →
      AllClosed (first :: rest)
end

/-- A block that is an expression, which may stand outside of all brackets. -/
inductive Step.IsExpression : Step → Prop
  | block {opener closer : String} {body : List Step} {last : Char} {others : List Char}
      (opens : IsSolid opener) (closes : IsSolid closer)
      (enters : Leads [] (last :: others) opener.toList)
      (leaves : Leads (last :: others) [] closer.toList) (within : AllClosed body) :
      (Step.block opener closer body).IsExpression

theorem AllClosed.of_forall {list : List Step} (each : ∀ first ∈ list, first.Closed) :
    AllClosed list := by
  induction list with
  | nil => exact .nil
  | cons first rest ih =>
      obtain ⟨here, later⟩ := List.forall_mem_cons.mp each
      exact .cons here (ih later)

theorem AllClosed.append {first second : List Step} (front : AllClosed first)
    (back : AllClosed second) : AllClosed (first ++ second) := by
  induction first with
  | nil => exact back
  | cons step first ih =>
      cases front with
      | cons here later => exact .cons here (ih later)

theorem IsSolid.of_letters {text : String} {letters : List Char} (same : text = String.ofList letters)
    (dark : letters.getLast?.any (fun c => !Text.isBlank c) = true) : IsSolid text := by
  rcases last : letters.getLast? with _ | c
  · rw [last] at dark
    cases dark
  · rw [last] at dark
    obtain ⟨front, rfl⟩ := List.getLast?_eq_some_iff.mp last
    exact ⟨front, c, by rw [same, String.toList_ofList], by simpa using dark⟩

/-- A line that is given in full. -/
theorem Step.Closed.of_line {text : String} {letters : List Char} (same : text = String.ofList letters)
    (dark : letters.getLast?.any (fun c => !Text.isBlank c) = true)
    (inside : ∀ closer, Leads [closer] [closer] letters) : (Step.line text).Closed :=
  .line (.of_letters same dark) fun closer => .of_letters same (inside closer)

/-- A block whose first and last lines are given in full. -/
theorem Step.Closed.of_block {opener closer : String} {opening closing : List Char}
    {body : List Step} {last : Char} {others : List Char} (opens : opener = String.ofList opening)
    (closes : closer = String.ofList closing)
    (dark : opening.getLast?.any (fun c => !Text.isBlank c) = true)
    (closingDark : closing.getLast?.any (fun c => !Text.isBlank c) = true)
    (enters : Leads [] (last :: others) opening)
    (leaves : ∀ outer, Leads (last :: others ++ [outer]) [outer] closing) (within : AllClosed body) :
    (Step.block opener closer body).Closed :=
  .block (.of_letters opens dark) (.of_letters closes closingDark) (.of_letters opens enters)
    (fun outer => .of_letters closes (leaves outer)) within

theorem Step.IsExpression.of_block {opener closer : String} {opening closing : List Char}
    {body : List Step} {last : Char} {others : List Char} (opens : opener = String.ofList opening)
    (closes : closer = String.ofList closing)
    (dark : opening.getLast?.any (fun c => !Text.isBlank c) = true)
    (closingDark : closing.getLast?.any (fun c => !Text.isBlank c) = true)
    (enters : Leads [] (last :: others) opening) (leaves : Leads (last :: others) [] closing)
    (within : AllClosed body) : (Step.block opener closer body).IsExpression :=
  .block (.of_letters opens dark) (.of_letters closes closingDark) (.of_letters opens enters)
    (.of_letters closes leaves) within

theorem balanced_marginOf (level : Nat) : Balanced (marginOf standardIndent level).toList := by
  refine balanced_of_isInert fun c member => ?_
  rw [toList_marginOf] at member
  obtain ⟨indent, copy, inside⟩ := List.mem_flatten.mp member
  rw [List.eq_of_mem_replicate copy] at inside
  have blanks : standardIndent.toList.all isInert = true := by decide
  exact List.all_eq_true.mp blanks c inside

theorem balanced_lineFeed : Balanced ['\n'] := rfl

/-- A line of some code behind its margin. -/
theorem Leads.row {front back : List Char} {text : String} (leads : Leads front back text.toList)
    (level : Nat) : Leads front back ((marginOf standardIndent level ++ text).toList ++ ['\n']) := by
  rw [String.toList_append]
  exact (((balanced_marginOf level).within front).append leads).append
    (balanced_lineFeed.within back)

/-- Lines that leave a place between brackets as they found it. -/
def KeepPlace (lines : List String) : Prop :=
  ∀ closer, Leads [closer] [closer] (ended lines)

theorem ended_append (first second : List String) :
    ended (first ++ second) = ended first ++ ended second :=
  List.flatMap_append

theorem ended_singleton (line : String) : ended [line] = line.toList ++ ['\n'] :=
  List.flatMap_singleton _ line

theorem leads_block {opener closer : String} {back inner : List Char} {last : Char}
    {lines : List String} (enters : Leads back (last :: inner) opener.toList)
    (leaves : Leads (last :: inner) back closer.toList) (kept : KeepPlace lines) (level : Nat) :
    Leads back back (ended ((marginOf standardIndent level ++ opener) :: lines) ++
      (marginOf standardIndent level ++ closer).toList) := by
  have left : Leads (last :: inner) back (marginOf standardIndent level ++ closer).toList := by
    rw [String.toList_append]
    exact ((balanced_marginOf level).within _).append leaves
  rw [← List.singleton_append, ended_append, ended_singleton]
  exact ((enters.row level).append ((kept last).within inner)).append left

namespace Page

theorem blankLine_of_pending_none (indent : String) (level : Nat) (finished : Array String) :
    ∃ lines, blankLine ⟨indent, level, finished, none⟩ =
        ⟨indent, level, finished ++ lines.toArray, none⟩ ∧ KeepPlace lines := by
  have nothing : KeepPlace [] := fun _ => .nil
  have empty : KeepPlace [""] := fun closer => balanced_lineFeed.within [closer]
  simp only [blankLine, Option.isSome_none, Bool.false_eq_true, if_false]
  split
  · exact ⟨[], by simp, nothing⟩
  · split
    · exact ⟨[], by simp, nothing⟩
    · exact ⟨[""], by simp, empty⟩

mutual
/-- A closed step adds lines that leave a place as they found it. -/
theorem step_closed {first : Step} (closed : first.Closed) (level : Nat) (finished : Array String) :
    ∃ lines, step first ⟨standardIndent, level, finished, none⟩ =
        ⟨standardIndent, level, finished ++ lines.toArray, none⟩ ∧ KeepPlace lines := by
  cases closed with
  | @line text solid inside =>
      refine ⟨[marginOf standardIndent level ++ text], ?_, fun closer => ?_⟩
      · rw [step, line_solid solid]
        rfl
      · rw [ended_singleton]
        exact (inside closer).row level
  | blankLine => exact blankLine_of_pending_none standardIndent level finished
  | @block opener ending body last others opens closes enters leaves closed =>
      obtain ⟨lines, added, kept⟩ := step_block opens closes closed level finished
      refine ⟨_, added, fun closer => ?_⟩
      rw [ended_append, ended_singleton, ← List.append_assoc]
      exact (leads_block (enters.within [closer]) (leaves closer) kept level).append
        (balanced_lineFeed.within [closer])

theorem step_block {opener ending : String} {body : List Step} (opens : IsSolid opener)
    (closes : IsSolid ending) (closed : AllClosed body) (level : Nat) (finished : Array String) :
    ∃ lines, step (.block opener ending body) ⟨standardIndent, level, finished, none⟩ =
        ⟨standardIndent, level, finished ++ ((marginOf standardIndent level ++ opener) :: lines ++
          [marginOf standardIndent level ++ ending]).toArray, none⟩ ∧ KeepPlace lines := by
  obtain ⟨lines, added, kept⟩ := steps_closed closed (level + 1)
    (finished.push (marginOf standardIndent level ++ opener))
  refine ⟨lines, ?_, kept⟩
  rw [step, line_solid opens]
  simp only [Option.getD_none, margin]
  rw [← marginOf, added]
  simp only [line_solid closes, Option.getD_none, margin, Nat.add_sub_cancel]
  rw [← marginOf]
  simp

theorem steps_closed {list : List Step} (closed : AllClosed list) (level : Nat)
    (finished : Array String) :
    ∃ lines, steps list ⟨standardIndent, level, finished, none⟩ =
        ⟨standardIndent, level, finished ++ lines.toArray, none⟩ ∧ KeepPlace lines := by
  cases closed with
  | nil => exact ⟨[], by simp [steps], fun _ => .nil⟩
  | cons first rest =>
      obtain ⟨lines, here, kept⟩ := step_closed first level finished
      obtain ⟨more, later, keptToo⟩ := steps_closed rest level (finished ++ lines.toArray)
      refine ⟨lines ++ more, ?_, fun closer => ?_⟩
      · rw [steps, here, later]
        simp
      · rw [ended_append]
        exact (kept closer).append (keptToo closer)
end

end Page

theorem balanced_layout {first : Step} (expression : first.IsExpression) :
    Balanced (layout [first]).toList := by
  cases expression with
  | @block opener closer body last others opens closes enters leaves inside =>
      obtain ⟨lines, added, kept⟩ := Page.step_block opens closes inside 0 #[]
      have text : layout [.block opener closer body] = String.intercalate "\n"
          ((marginOf standardIndent 0 ++ opener) :: lines ++ [marginOf standardIndent 0 ++ closer]) := by
        rw [layout, Page.steps, Page.steps, Page.empty, added]
        simp [Page.text, Page.lines]
      rw [text, toList_intercalate_lines]
      exact leads_block enters leaves kept 0

end ApiCompiler.Script
