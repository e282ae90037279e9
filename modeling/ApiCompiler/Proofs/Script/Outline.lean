import ApiCompiler.Proofs.Script.Imports
import ApiCompiler.Proofs.Script.Places
import ApiCompiler.Proofs.Script.Surface

/-!
Reading a module back from its text: its statements, and what they import, declare and export. What
a source file is made of is what is read from its text.
-/

namespace ApiCompiler.Script

/-! Statements. -/

/--
The statements of a script from a place on, without the blanks before them and the semicolons that
end them; what has been read of the first of them is given backwards. A script that leaves something
open or does not end its last statement has none.
-/
def statementsFrom? : Place → (begun : List Char) → List Char → Option (List (List Char))
  | place, begun, [] => if place = .code [] && begun.isEmpty then some [] else none
  | place, begun, c :: rest =>
      if place = .code [] && begun.isEmpty && Text.isBlank c then statementsFrom? place begun rest
      else if place = .code [] && c = ';' then
        (statementsFrom? (.code []) [] rest).map (begun.reverse :: ·)
      else (place.next? c).bind fun next => statementsFrom? next (c :: begun) rest

theorem statementsFrom?_append {place next : Place} {begun text : List Char}
    (solid : begun = [] → ∀ c ∈ text.head?, Text.isBlank c = false)
    (leads : place.after? text = some next) (rest : List Char) :
    statementsFrom? place begun (text ++ rest) =
      statementsFrom? next (text.reverse ++ begun) rest := by
  induction text generalizing place begun with
  | nil =>
      cases leads
      rfl
  | cons c text ih =>
      rw [Place.after?_cons] at leads
      obtain ⟨following, here, leads⟩ := Option.bind_eq_some_iff.mp leads
      have dark : ¬(place = .code [] && begun.isEmpty && Text.isBlank c) = true := by
        intro skipped
        simp only [Bool.and_eq_true, List.isEmpty_iff] at skipped
        rw [solid skipped.1.2 c rfl] at skipped
        cases skipped.2
      have goesOn : ¬(place = .code [] && c = ';') = true := by
        intro ends
        simp only [Bool.and_eq_true, decide_eq_true_eq] at ends
        obtain ⟨rfl, rfl⟩ := ends
        cases here
      rw [List.cons_append, statementsFrom?, if_neg dark, if_neg goesOn, here, Option.bind_some,
        ih (by simp) leads]
      simp

/-- A text that holds whole statements, whatever stands behind it. -/
def States (text : List Char) (statements : List (List Char)) : Prop :=
  ∀ rest, statementsFrom? (.code []) [] (text ++ rest) =
    (statementsFrom? (.code []) [] rest).map (statements ++ ·)

namespace States

theorem blank {text : List Char} (blank : ∀ c ∈ text, Text.isBlank c = true) : States text [] := by
  intro rest
  induction text with
  | nil => simp
  | cons c text ih =>
      obtain ⟨here, later⟩ := List.forall_mem_cons.mp blank
      rw [List.cons_append, statementsFrom?, if_pos (by simp [here]), ih later]

theorem append {first second : List Char} {before after : List (List Char)}
    (front : States first before) (back : States second after) :
    States (first ++ second) (before ++ after) := by
  intro rest
  rw [List.append_assoc, front, back, Option.map_map]
  exact congrArg (Option.map · _) (funext fun _ => (List.append_assoc _ _ _).symm)

theorem statement {text : List Char} (some : text ≠ [])
    (solid : ∀ c ∈ text.head?, Text.isBlank c = false) (balanced : Balanced text) :
    States (text ++ [';']) [text] := by
  intro rest
  rw [List.append_assoc, statementsFrom?_append (fun _ => solid) balanced, List.append_nil,
    List.singleton_append, statementsFrom?, if_neg (by simp [some]), if_pos (by simp),
    List.reverse_reverse]
  rfl

theorem intercalate {separator : String} (between : ∀ c ∈ separator.toList, Text.isBlank c = true)
    {texts : List (String × List (List Char))} (each : ∀ text ∈ texts, States text.1.toList text.2) :
    States (String.intercalate separator (texts.map Prod.fst)).toList
      (texts.flatMap Prod.snd) := by
  induction texts with
  | nil =>
      rw [List.map_nil, String.intercalate_nil, String.toList_empty]
      exact .blank nofun
  | cons first texts ih =>
      obtain ⟨here, later⟩ := List.forall_mem_cons.mp each
      cases texts with
      | nil =>
          rw [List.map_singleton, String.intercalate_singleton, List.flatMap_singleton]
          exact here
      | cons second texts =>
          rw [List.map_cons, List.map_cons, String.intercalate_cons_cons, String.toList_append,
            String.toList_append, List.append_assoc, List.flatMap_cons]
          have rest := (States.blank between).append (ih later)
          exact here.append (by simpa using rest)

end States

/-! What statements say. -/

/-- A constant with the text of its value. -/
structure Constant where
  name : String
  isExported : Bool
  value : String
  deriving DecidableEq

inductive Statement
  | importing (i : Import)
  | constant (c : Constant)
  | main (value : String)

namespace Statement

def import? : Statement → Option Import
  | .importing i => some i
  | _ => none

def constant? : Statement → Option Constant
  | .constant c => some c
  | _ => none

def main? : Statement → Option String
  | .main value => some value
  | _ => none

end Statement

/-- The names in braces at the start of a text, and what follows them. -/
def readBraces : List Char → List String × List Char
  | '\x7b' :: rest =>
      ((entriesWithin (rest.takeWhile (· ≠ '\x7d'))).map String.ofList,
        (rest.dropWhile (· ≠ '\x7d')).drop 1)
  | text => ([], text)

/--
The name of a default at the start of a text, be it one that can be bound or not, and what follows it
and a comma.
-/
def readMain (text : List Char) : Option String × List Char :=
  if (text.takeWhile isNamePart).isEmpty then (none, text)
  else
    let rest := text.dropWhile isNamePart
    (some (String.ofList (text.takeWhile isNamePart)), (Text.after? [',', ' '] rest).getD rest)

/-- An import behind its keyword. -/
def readImport? (text : List Char) : Option Import := do
  let (main, rest) := readMain text
  let (names, rest) := readBraces rest
  let rest ← Text.after? " from ".toList rest
  let (source, rest) ← readLiteral? rest
  if rest.isEmpty then some ⟨source, main, names⟩ else none

/-- A constant behind its keyword. What stands between its name and its value may be a type. -/
def readConstant? (isExported : Bool) (text : List Char) : Option Constant := do
  let (name, rest) ← readName? text
  let type := rest.takeWhile (· ≠ '=')
  let value ← Text.after? "= ".toList (rest.dropWhile (· ≠ '='))
  if type = [' '] || ": ".toList.isPrefixOf type then
    some ⟨name, isExported, String.ofList value⟩
  else none

def readStatement? (text : List Char) : Option Statement :=
  ((Text.after? "import ".toList text).bind fun rest => (readImport? rest).map .importing).or <|
  ((Text.after? "const ".toList text).bind fun rest =>
    (readConstant? false rest).map .constant).or <|
  ((Text.after? "export const ".toList text).bind fun rest =>
    (readConstant? true rest).map .constant).or <|
  (Text.after? "export default ".toList text).map fun value => .main (String.ofList value)

/-- What a module consists of. -/
structure Outline where
  imports : List Import
  constants : List Constant
  main : Option String

namespace Outline

/-- The names of the exported constants. -/
def exportedNames (outline : Outline) : List String :=
  (outline.constants.filter Constant.isExported).map Constant.name

/-- The names that a module asks the file at an address for. -/
def namesFrom (outline : Outline) (address : String) : List String :=
  (outline.imports.filter fun i => i.source = address).flatMap Import.wantedNames

/-- The entries of the literal that is the default export. -/
def mainEntries (outline : Outline) : List String :=
  (outline.main.map entries).getD []

/-- The entries of the literal that a constant stands for. -/
def entriesOf (outline : Outline) (name : String) : List String :=
  ((outline.constants.find? fun c => c.name = name).map fun c => entries c.value).getD []

end Outline

/-- The outline of a script all of whose statements belong at the top of a module. -/
def outline? (text : String) : Option Outline := do
  let texts ← statementsFrom? (.code []) [] text.toList
  let statements ← texts.mapM readStatement?
  let mains := statements.filterMap Statement.main?
  if mains.length ≤ 1 then
    some ⟨statements.filterMap Statement.import?, statements.filterMap Statement.constant?,
      mains.head?⟩
  else none

/-! Imports. -/

theorem forall_mem_intercalate {p : Char → Prop} {separator : String} {texts : List String}
    (between : ∀ c ∈ separator.toList, p c) (each : ∀ text ∈ texts, ∀ c ∈ text.toList, p c) :
    ∀ c ∈ (String.intercalate separator texts).toList, p c := by
  induction texts with
  | nil => simp
  | cons first texts ih =>
      obtain ⟨here, later⟩ := List.forall_mem_cons.mp each
      cases texts with
      | nil =>
          rw [String.intercalate_singleton]
          exact here
      | cons second texts =>
          rw [String.intercalate_cons_cons, String.toList_append, String.toList_append]
          exact List.forall_mem_append.mpr ⟨List.forall_mem_append.mpr ⟨here, between⟩, ih later⟩

theorem isBlank_of_isNamePart {c : Char} (part : isNamePart c = true) : Text.isBlank c = false := by
  simp only [isNamePart, Bool.or_eq_true, decide_eq_true_eq] at part
  rcases part with (usable | rfl) | rfl
  · exact isBlank_of_isAlphanum usable
  · decide
  · decide

theorem isEntry_of_isName {name : List Char} (whole : isName name = true) : IsEntry name := by
  have parts := isNamePart_of_isName whole
  refine .of_solid ?_ (fun c member => isBlank_of_isNamePart (parts c member)) fun comma => ?_
  · rintro rfl
    cases whole
  · exact absurd (parts ',' comma) (by decide)

/-- A text of letters and digits that a name may go on with. -/
structure IsWord (text : String) : Prop where
  some : text ≠ ""
  parts : ∀ c ∈ text.toList, isNamePart c = true

theorem isWord_of_isName {name : String} (whole : isName name.toList = true) : IsWord name := by
  refine ⟨?_, isNamePart_of_isName whole⟩
  rintro rfl
  cases whole

/-- An import whose line is read as it is meant. -/
structure Import.Readable (i : Import) : Prop where
  main : ∀ name ∈ i.main, IsWord name
  entries : ∀ name ∈ i.names, IsEntry name.toList
  inert : ∀ name ∈ i.names, ∀ c ∈ name.toList, isInert c = true

theorem Import.Readable.of_isName {i : Import} (main : ∀ name ∈ i.main, IsWord name)
    (names : ∀ name ∈ i.names, isName name.toList = true) : i.Readable :=
  ⟨main, fun name member => isEntry_of_isName (names name member), fun name member c inside =>
    isInert_of_isNamePart (isNamePart_of_isName (names name member) c inside)⟩

def Import.sorted (i : Import) : Import :=
  { i with names := i.names.mergeSort fun a b => a ≤ b }

theorem Import.mem_wantedNames_sorted {i : Import} {name : String} :
    name ∈ i.sorted.wantedNames ↔ name ∈ i.wantedNames := by
  simp [Import.wantedNames, Import.sorted, List.mem_mergeSort]

theorem Import.Readable.sorted {i : Import} (readable : i.Readable) : i.sorted.Readable := by
  refine ⟨readable.main, fun name member => ?_, fun name member => ?_⟩
  · exact readable.entries name (List.mem_mergeSort.mp member)
  · exact readable.inert name (List.mem_mergeSort.mp member)

section Names

variable {names : List String} (entries : ∀ name ∈ names, IsEntry name.toList)
  (inert : ∀ name ∈ names, ∀ c ∈ name.toList, isInert c = true)

include inert in
theorem inert_intercalate :
    ∀ c ∈ (String.intercalate ", " names).toList, isInert c = true :=
  forall_mem_intercalate (List.all_eq_true.mp (by decide)) inert

include entries inert in
theorem readBraces_names (rest : List Char) :
    readBraces (("\x7b " ++ String.intercalate ", " names ++ " \x7d").toList ++ rest) =
      (names, rest) := by
  have letters : ("\x7b " ++ String.intercalate ", " names ++ " \x7d").toList ++ rest =
      '\x7b' :: (([' '] ++ (String.intercalate ", " names).toList ++ [' ']) ++ '\x7d' :: rest) := by
    simp
  have unclosed : ∀ c ∈ [' '] ++ (String.intercalate ", " names).toList ++ [' '],
      decide (c ≠ '\x7d') = true := by
    intro c member
    refine decide_eq_true ?_
    rintro rfl
    rcases List.mem_append.mp member with front | back
    · rcases List.mem_append.mp front with blank | inside
      · exact absurd blank (by decide)
      · exact absurd (inert_intercalate inert _ inside) (by decide)
    · exact absurd back (by decide)
  have spaced : ∀ c ∈ [' '], Text.isBlank c = true := by simp [Text.isBlank]
  have read := entriesWithin_intercalate spaced spaced entries
  rw [letters, readBraces, List.takeWhile_append_of_pos unclosed,
    List.dropWhile_append_of_pos unclosed, List.takeWhile_cons_of_neg (by simp),
    List.dropWhile_cons_of_neg (by simp), List.append_nil, read]
  simp [List.map_map, Function.comp_def]

end Names

theorem readMain_none {text : List Char} (other : ∀ c ∈ text.head?, isNamePart c = false) :
    readMain text = (none, text) := by
  cases text with
  | nil => rfl
  | cons c text => simp [readMain, other c rfl]

theorem readMain_name {name : String} (word : IsWord name) {rest : List Char}
    (stops : ∀ c ∈ rest.head?, isNamePart c = false) :
    readMain (name.toList ++ rest) = (some name, (Text.after? [',', ' '] rest).getD rest) := by
  have cut : rest.takeWhile isNamePart = [] ∧ rest.dropWhile isNamePart = rest := by
    cases rest with
    | nil => simp
    | cons c rest => simp [stops c (by simp)]
  rw [readMain, List.takeWhile_append_of_pos word.parts, List.dropWhile_append_of_pos word.parts,
    cut.1, cut.2, List.append_nil, if_neg (by simpa using word.some), String.ofList_toList]

/-- What stands in front of `from`, in the order in which it is read. -/
theorem readItems {main : Option String} {names : List String}
    (named : ∀ name ∈ main, IsWord name) (entries : ∀ name ∈ names, IsEntry name.toList)
    (inert : ∀ name ∈ names, ∀ c ∈ name.toList, isInert c = true) {rest : List Char}
    (from_ : ∃ more, rest = " from ".toList ++ more) :
    ∃ between, readMain ((String.intercalate ", " (importItems main names)).toList ++ rest) =
        (main, between) ∧ readBraces between = (names, rest) := by
  obtain ⟨more, rfl⟩ := from_
  have unbraced : readBraces (" from ".toList ++ more) = ([], " from ".toList ++ more) := rfl
  rcases main with _ | name
  · rcases names with _ | ⟨first, names⟩
    · refine ⟨_, ?_, unbraced⟩
      have nothing : importItems none [] = [] := rfl
      rw [nothing, String.intercalate_nil]
      exact readMain_none (by simp [isNamePart])
    · refine ⟨_, ?_, readBraces_names entries inert _⟩
      rw [importItems]
      exact readMain_none (by simp [isNamePart])
  · have whole := named name rfl
    rcases names with _ | ⟨first, names⟩
    · refine ⟨_, ?_, unbraced⟩
      rw [importItems]
      exact readMain_name whole (by simp [isNamePart])
    · refine ⟨_, ?_, readBraces_names entries inert _⟩
      have letters : (String.intercalate ", " (importItems (some name) (first :: names))).toList =
          name.toList ++ (',' :: ' ' ::
            ("\x7b " ++ String.intercalate ", " (first :: names) ++ " \x7d").toList) := by
        simp [importItems, String.intercalate_cons_cons]
      rw [letters, List.append_assoc, readMain_name whole (by simp [isNamePart])]
      rfl

def Import.clause (i : Import) : String :=
  String.intercalate ", " (importItems i.main i.names) ++ " from " ++ stringLiteral i.source

theorem Import.line_eq_clause (i : Import) : i.line = "import " ++ i.sorted.clause ++ ";" := by
  rw [line_eq, Import.clause]
  simp only [String.append_assoc]
  rfl

theorem readImport?_clause {i : Import} (readable : i.Readable) :
    readImport? i.clause.toList = some i := by
  have letters : i.clause.toList = (String.intercalate ", " (importItems i.main i.names)).toList ++
      (" from ".toList ++ (stringLiteral i.source).toList) := by
    simp [Import.clause]
  obtain ⟨between, main, names⟩ :=
    readItems readable.main readable.entries readable.inert ⟨_, rfl⟩
  have source := readLiteral?_stringLiteral i.source []
  rw [List.append_nil] at source
  rw [readImport?, letters, main]
  dsimp only
  rw [names]
  dsimp only
  rw [Text.after?_eq_some_iff.mpr rfl]
  simp only [Option.bind_eq_bind, Option.bind_some, source]
  rfl

theorem balanced_clause {i : Import} (readable : i.Readable) :
    Balanced ("import " ++ i.clause).toList := by
  have items : ∀ item ∈ importItems i.main i.names, Balanced item.toList := by
    intro item member
    rcases List.mem_append.mp member with main | braces
    · have word := readable.main item (Option.mem_toList.mp main)
      exact balanced_of_isInert fun c member => isInert_of_isNamePart (word.parts c member)
    · split at braces
      · cases braces
      · obtain rfl := List.mem_singleton.mp braces
        have opens : Leads [] ['\x7d'] "\x7b ".toList := rfl
        have closes : Leads ['\x7d'] [] " \x7d".toList := rfl
        have inside := (balanced_of_isInert (inert_intercalate readable.inert)).within ['\x7d']
        rw [String.toList_append, String.toList_append]
        exact (opens.append inside).append closes
  have keyword : Balanced "import ".toList := rfl
  have comma : Balanced ", ".toList := rfl
  have from_ : Balanced " from ".toList := rfl
  rw [String.toList_append, Import.clause, String.toList_append, String.toList_append]
  exact keyword.append (((balanced_intercalate comma items).append from_).append
    (balanced_stringLiteral i.source))

/-! Constants and the default export. -/

/-- A declaration that is read as it is meant. -/
structure Declaration.Readable (d : Declaration) : Prop where
  name : isName d.name.toList = true
  type : ∀ type ∈ d.annotation, Balanced type.toList ∧ '=' ∉ type.toList
  value : Balanced d.value.render.toList

namespace Declaration

def constant (d : Declaration) : Constant :=
  ⟨d.name, d.isExported, d.value.render⟩

def keyword (d : Declaration) : String :=
  if d.isExported then "export const " else "const "

/-- What stands between the name and the equals sign. -/
def typeText (d : Declaration) : List Char :=
  match d.annotation with
  | none => []
  | some type => if type.isEmpty then [] else ':' :: ' ' :: type.toList

/-- What stands behind the keyword. -/
def body (d : Declaration) : List Char :=
  d.name.toList ++ (d.typeText ++ (" = ".toList ++ d.value.render.toList))

theorem toList_render (d : Declaration) :
    d.render.toList = d.keyword.toList ++ d.body ++ [';'] := by
  rw [render, keyword, body, typeText]
  rcases d.annotation with _ | type
  · simp
  · by_cases empty : type = "" <;> simp [empty]

variable {d : Declaration}

theorem Readable.typeText (readable : d.Readable) :
    Balanced d.typeText ∧ '=' ∉ d.typeText ∧
      (∀ c ∈ (d.typeText ++ [' ']).head?, isNamePart c = false) ∧
      (d.typeText ++ [' '] = [' '] ∨ ": ".toList <+: d.typeText ++ [' ']) := by
  have plain : Balanced [] ∧ '=' ∉ ([] : List Char) ∧
      (∀ c ∈ ([] ++ [' ']).head?, isNamePart c = false) ∧
      (([] ++ [' '] : List Char) = [' '] ∨ ": ".toList <+: [] ++ [' ']) :=
    ⟨.nil, List.not_mem_nil, by simp [isNamePart], .inl rfl⟩
  rw [Declaration.typeText]
  rcases annotated : d.annotation with _ | type
  · exact plain
  · dsimp only
    split
    · exact plain
    · obtain ⟨balanced, unequal⟩ := readable.type type annotated
      have colon : Balanced [':', ' '] := rfl
      exact ⟨colon.append balanced, by simp [unequal], by simp [isNamePart], .inr (by simp)⟩

theorem readConstant?_body (readable : d.Readable) (isExported : Bool) :
    readConstant? isExported d.body = some ⟨d.name, isExported, d.value.render⟩ := by
  obtain ⟨-, unequal, stops, shape⟩ := readable.typeText
  have letters : d.body =
      d.name.toList ++ ((d.typeText ++ [' ']) ++ '=' :: ' ' :: d.value.render.toList) := by
    simp [body]
  have before : ∀ c ∈ d.typeText ++ [' '], decide (c ≠ '=') = true := by
    intro c member
    refine decide_eq_true ?_
    rintro rfl
    simp [unequal] at member
  have whole : readName? d.body =
      some (d.name, (d.typeText ++ [' ']) ++ '=' :: ' ' :: d.value.render.toList) := by
    rw [letters, readName?_of_isName readable.name, String.ofList_toList]
    rwa [List.head?_append_of_ne_nil _ (by simp)]
  have passes : (d.typeText ++ [' '] = [' '] || ": ".toList.isPrefixOf (d.typeText ++ [' '])) =
      true := by
    rw [Bool.or_eq_true, decide_eq_true_eq, List.isPrefixOf_iff_prefix]
    exact shape
  rw [readConstant?, whole]
  simp only [Option.bind_eq_bind, Option.bind_some]
  rw [List.takeWhile_append_of_pos before, List.dropWhile_append_of_pos before,
    List.takeWhile_cons_of_neg (by simp), List.dropWhile_cons_of_neg (by simp), List.append_nil]
  have value : Text.after? "= ".toList ('=' :: ' ' :: d.value.render.toList) =
      some d.value.render.toList := Text.after?_eq_some_iff.mpr rfl
  rw [value, Option.bind_some, if_pos passes, String.ofList_toList]

theorem readStatement?_body (readable : d.Readable) :
    readStatement? (d.keyword.toList ++ d.body) = some (.constant d.constant) := by
  have read := readConstant?_body readable
  rw [keyword, constant, readStatement?]
  cases d.isExported with
  | true =>
      have noImport : Text.after? "import ".toList ("export const ".toList ++ d.body) = none := rfl
      have noConstant : Text.after? "const ".toList ("export const ".toList ++ d.body) = none := rfl
      rw [if_pos rfl, noImport, noConstant, Text.after?_eq_some_iff.mpr rfl]
      simp only [Option.bind_none, Option.bind_some, Option.none_or, read, Option.map_some,
        Option.some_or]
  | false =>
      have noImport : Text.after? "import ".toList ("const ".toList ++ d.body) = none := rfl
      rw [if_neg Bool.false_ne_true, noImport, Text.after?_eq_some_iff.mpr rfl]
      simp only [Option.bind_none, Option.bind_some, Option.none_or, read, Option.map_some,
        Option.some_or]

theorem balanced_body (readable : d.Readable) : Balanced (d.keyword.toList ++ d.body) := by
  have keyword : Balanced d.keyword.toList := by
    rw [Declaration.keyword]
    split <;> exact rfl
  have equals : Balanced " = ".toList := rfl
  exact keyword.append ((balanced_of_isName readable.name).append
    (readable.typeText.1.append (equals.append readable.value)))

end Declaration

theorem readStatement?_main (value : List Char) :
    readStatement? ("export default ".toList ++ value) = some (.main (String.ofList value)) := by
  have noImport : Text.after? "import ".toList ("export default ".toList ++ value) = none := rfl
  have noConstant : Text.after? "const ".toList ("export default ".toList ++ value) = none := rfl
  have unexported : Text.after? "export const ".toList ("export default ".toList ++ value) = none :=
    rfl
  rw [readStatement?, noImport, noConstant, unexported, Text.after?_eq_some_iff.mpr rfl]
  rfl

theorem readStatement?_import {i : Import} (readable : i.Readable) :
    readStatement? ("import " ++ i.clause).toList = some (.importing i) := by
  rw [String.toList_append, readStatement?, Text.after?_eq_some_iff.mpr rfl, Option.bind_some,
    readImport?_clause readable]
  rfl

/-! Files. -/

theorem mapM_map_fst_eq_some {α β : Type} {read : α → Option β} {pairs : List (α × β)}
    (each : ∀ pair ∈ pairs, read pair.1 = some pair.2) :
    (pairs.map Prod.fst).mapM read = some (pairs.map Prod.snd) := by
  induction pairs with
  | nil => rfl
  | cons first pairs ih =>
      obtain ⟨here, later⟩ := List.forall_mem_cons.mp each
      rw [List.map_cons, List.mapM_cons, here, ih later]
      rfl

namespace SourceFile

/-- A file whose text is read as it is meant. -/
structure Readable (file : SourceFile) : Prop where
  imports : ∀ i ∈ file.imports.list, i.Readable
  declarations : ∀ d ∈ file.declarations, d.Readable
  main : ∀ value ∈ file.defaultExport, Balanced value.render.toList

/-- What a file consists of; the names in a line of imports are sorted. -/
def outline (file : SourceFile) : Outline :=
  ⟨file.imports.list.map Import.sorted, file.declarations.map Declaration.constant,
    file.defaultExport.map Expression.render⟩

/-- The statements of a file, each with what it says. -/
def statements (file : SourceFile) : List (List Char × Statement) :=
  file.imports.list.map (fun i => (("import " ++ i.sorted.clause).toList, .importing i.sorted)) ++
    (file.declarations.map (fun d => (d.keyword.toList ++ d.body, .constant d.constant)) ++
      file.defaultExport.toList.map fun value =>
        ("export default ".toList ++ value.render.toList, .main value.render))

variable {file : SourceFile}

theorem Readable.statement (readable : file.Readable) :
    ∀ statement ∈ file.statements, readStatement? statement.1 = some statement.2 := by
  intro statement member
  rcases List.mem_append.mp member with imported | member
  · obtain ⟨i, known, rfl⟩ := List.mem_map.mp imported
    exact readStatement?_import (readable.imports i known).sorted
  · rcases List.mem_append.mp member with declared | exported
    · obtain ⟨d, known, rfl⟩ := List.mem_map.mp declared
      exact Declaration.readStatement?_body (readable.declarations d known)
    · obtain ⟨value, known, rfl⟩ := List.mem_map.mp exported
      rw [readStatement?_main, String.ofList_toList]

theorem states_line {i : Import} (readable : i.Readable) :
    States i.line.toList [("import " ++ i.sorted.clause).toList] := by
  have states := States.statement (by simp) (by simp [Text.isBlank])
    (balanced_clause readable.sorted)
  rw [Import.line_eq_clause, String.toList_append]
  exact states

theorem states_declaration {d : Declaration} (readable : d.Readable) :
    States d.render.toList [d.keyword.toList ++ d.body] := by
  rw [Declaration.toList_render]
  refine States.statement ?_ ?_ (Declaration.balanced_body readable) <;>
    · rw [Declaration.keyword]
      split <;> simp [Text.isBlank]

theorem states_main {value : Expression} (balanced : Balanced value.render.toList) :
    States ("export default " ++ value.render ++ ";").toList
      ["export default ".toList ++ value.render.toList] := by
  have keyword : Balanced "export default ".toList := rfl
  rw [String.toList_append, String.toList_append]
  exact States.statement (by simp) (by simp [Text.isBlank]) (keyword.append balanced)

/-- The sections of a file, each with its statements. -/
def sections (file : SourceFile) : List (String × List (List Char)) :=
  (if file.imports.list.isEmpty then []
    else [(String.intercalate "\n" file.imports.lines,
      file.imports.list.map fun i => ("import " ++ i.sorted.clause).toList)]) ++
    (file.declarations.map (fun d => (d.render, [d.keyword.toList ++ d.body])) ++
      file.defaultExport.toList.map fun value =>
        ("export default " ++ value.render ++ ";", ["export default ".toList ++ value.render.toList]))

theorem Readable.section (readable : file.Readable) :
    ∀ part ∈ file.sections, States part.1.toList part.2 := by
  intro part member
  rcases List.mem_append.mp member with imported | member
  · split at imported
    · cases imported
    · obtain rfl := List.mem_singleton.mp imported
      have states := @States.intercalate "\n" (by simp [Text.isBlank])
        (file.imports.list.map fun i => (i.line, [("import " ++ i.sorted.clause).toList]))
        (by
          intro line inside
          obtain ⟨i, known, rfl⟩ := List.mem_map.mp inside
          exact states_line (readable.imports i known))
      rw [List.map_map, List.flatMap_map] at states
      rw [← List.map_eq_flatMap] at states
      exact states
  · rcases List.mem_append.mp member with declared | exported
    · obtain ⟨d, known, rfl⟩ := List.mem_map.mp declared
      exact states_declaration (readable.declarations d known)
    · obtain ⟨value, known, rfl⟩ := List.mem_map.mp exported
      exact states_main (readable.main value (Option.mem_toList.mp known))

theorem Readable.states (readable : file.Readable) :
    States file.render.toList (file.statements.map Prod.fst) := by
  have texts : file.render = String.intercalate "\n\n" (file.sections.map Prod.fst) ++ "\n" := by
    rw [render, sections]
    split <;> simp [Function.comp_def]
  have all : file.sections.flatMap Prod.snd = file.statements.map Prod.fst := by
    have each {α : Type} (text : α → List Char) (list : List α) :
        (list.flatMap fun a => [text a]) = list.map text := List.map_eq_flatMap.symm
    rw [sections, statements]
    simp only [List.flatMap_append, List.flatMap_map, List.map_append, List.map_map, each]
    split
    · rename_i none
      rw [List.isEmpty_iff.mp none]
      rfl
    · rw [List.flatMap_singleton]
      rfl
  have blank : ∀ c ∈ "\n".toList, Text.isBlank c = true := by simp [Text.isBlank]
  have joined := @States.intercalate "\n\n" (by simp [Text.isBlank]) _ readable.section
  rw [texts, String.toList_append, ← all, ← List.append_nil (file.sections.flatMap Prod.snd)]
  exact joined.append (.blank blank)

/-- A readable file is read back from its text. -/
theorem Readable.outline?_render (readable : file.Readable) :
    outline? file.render = some file.outline := by
  have texts : statementsFrom? (.code []) [] file.render.toList =
      some (file.statements.map Prod.fst) := by
    have read := readable.states []
    rw [List.append_nil] at read
    rw [read, statementsFrom?]
    simp
  rw [outline?, texts]
  simp only [Option.bind_eq_bind, Option.bind_some, mapM_map_fst_eq_some readable.statement]
  have mains : (file.statements.map Prod.snd).filterMap Statement.main? =
      file.defaultExport.toList.map Expression.render := by
    simp [statements, List.filterMap_map, Function.comp_def, Statement.main?]
  have imports : (file.statements.map Prod.snd).filterMap Statement.import? =
      file.imports.list.map Import.sorted := by
    simp [statements, List.filterMap_map, Function.comp_def, Statement.import?]
  have constants : (file.statements.map Prod.snd).filterMap Statement.constant? =
      file.declarations.map Declaration.constant := by
    simp [statements, List.filterMap_map, Function.comp_def, Statement.constant?]
  rw [mains, imports, constants, outline]
  cases file.defaultExport <;> rfl

end SourceFile

end ApiCompiler.Script
