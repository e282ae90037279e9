import Mathlib.Data.List.Forall2
import Mathlib.Data.List.Sort
import Mathlib.Data.String.Basic
import ApiCompiler.Proofs.Tree.Latest
import ApiCompiler.Script.Imports

/-!
Imports collected from calls, in any number and order: one line for each module that something is
imported from, which depends on the calls only through the order of the modules, their last defaults
and the sets of their names.
-/

namespace ApiCompiler.Script

theorem foldl_addName_eraseDups (known names : List String) :
    names.foldl Imports.addName known.eraseDups = (known ++ names).eraseDups := by
  induction names generalizing known with
  | nil => simp
  | cons name names ih =>
      have next : Imports.addName known.eraseDups name = (known ++ [name]).eraseDups := by
        rw [eraseDups_concat, Imports.addName]
        simp only [List.contains_iff_mem, List.mem_eraseDups]
      rw [List.foldl_cons, next, ih, List.append_assoc]
      rfl

/-! Calls. -/

/-- A request for names from a module, or for its default export under a name. -/
inductive ImportCall
  | named (source : String) (names : List String)
  | main (source name : String)

namespace ImportCall

def source : ImportCall → String
  | named source _ => source
  | main source _ => source

def names : ImportCall → List String
  | named _ names => names
  | main _ _ => []

def main? : ImportCall → Option String
  | named _ _ => none
  | main _ name => some name

/-- Whether anything is imported; a request for no names does nothing. -/
def asks : ImportCall → Bool
  | named _ names => !names.isEmpty
  | main _ _ => true

def addTo (imports : Imports) : ImportCall → Imports
  | named source names => imports.addNamed source names
  | main source name => imports.addDefault source name

end ImportCall

/-- The imports of a file that has none before the calls. -/
def collect (calls : List ImportCall) : Imports :=
  calls.foldl ImportCall.addTo {}

/-- The modules that something is imported from, in the order in which this happens first. -/
def sourcesOf (calls : List ImportCall) : List String :=
  ((calls.filter ImportCall.asks).map ImportCall.source).eraseDups

/-- The last name that the default export of a module is given. -/
def mainOf (calls : List ImportCall) (source : String) : Option String :=
  ((calls.filter fun call => call.source = source).filterMap ImportCall.main?).getLast?

/-- All names that are imported from a module, call by call. -/
def namesOf (calls : List ImportCall) (source : String) : List String :=
  (calls.filter fun call => call.source = source).flatMap ImportCall.names

def importOf (calls : List ImportCall) (source : String) : Import :=
  ⟨source, mainOf calls source, (namesOf calls source).eraseDups⟩

section Steps

variable (calls : List ImportCall)

theorem mem_sourcesOf {source : String} :
    source ∈ sourcesOf calls ↔ ∃ call ∈ calls, call.asks = true ∧ call.source = source := by
  simp [sourcesOf, List.mem_eraseDups, and_assoc]

theorem sourcesOf_concat (call : ImportCall) :
    sourcesOf (calls ++ [call]) =
      if call.asks = true ∧ call.source ∉ sourcesOf calls then sourcesOf calls ++ [call.source]
      else sourcesOf calls := by
  cases asked : call.asks with
  | false => simp [sourcesOf, List.filter_append, asked]
  | true =>
      have known : call.source ∈ (calls.filter ImportCall.asks).map ImportCall.source ↔
          call.source ∈ sourcesOf calls := by
        rw [sourcesOf, List.mem_eraseDups]
      have added : ((calls ++ [call]).filter ImportCall.asks).map ImportCall.source =
          (calls.filter ImportCall.asks).map ImportCall.source ++ [call.source] := by
        simp [List.filter_append, asked]
      rw [sourcesOf, added, eraseDups_concat, ← sourcesOf]
      simp only [known, ite_not, true_and]

theorem importOf_of_not_mem {source : String} (new : source ∉ sourcesOf calls) :
    importOf calls source = { source } := by
  have silent : ∀ call ∈ calls.filter fun call => call.source = source,
      call.names = [] ∧ call.main? = none := by
    intro call member
    obtain ⟨inside, same⟩ := List.mem_filter.mp member
    cases call with
    | named other names =>
        cases names with
        | nil => exact ⟨rfl, rfl⟩
        | cons name names =>
            exact absurd ((mem_sourcesOf calls).mpr ⟨_, inside, rfl, of_decide_eq_true same⟩) new
    | main other name =>
        exact absurd ((mem_sourcesOf calls).mpr ⟨_, inside, rfl, of_decide_eq_true same⟩) new
  have noMain : mainOf calls source = none := by
    rw [mainOf, List.getLast?_eq_none_iff, List.filterMap_eq_nil_iff]
    exact fun call member => (silent call member).2
  have noNames : namesOf calls source = [] := by
    rw [namesOf, List.flatMap_eq_nil_iff]
    exact fun call member => (silent call member).1
  rw [importOf, noMain, noNames]
  rfl

theorem importOf_concat_of_ne {call : ImportCall} {source : String} (other : call.source ≠ source) :
    importOf (calls ++ [call]) source = importOf calls source := by
  simp [importOf, mainOf, namesOf, other]

theorem importOf_concat_named (source : String) (names : List String) :
    importOf (calls ++ [.named source names]) source =
      { importOf calls source with
        names := names.foldl Imports.addName (importOf calls source).names } := by
  simp [importOf, mainOf, namesOf, ImportCall.source, ImportCall.names, ImportCall.main?,
    foldl_addName_eraseDups]

theorem importOf_concat_main (source name : String) :
    importOf (calls ++ [.main source name]) source =
      { importOf calls source with main := some name } := by
  simp [importOf, mainOf, namesOf, ImportCall.source, ImportCall.names, ImportCall.main?]

/-- A change to the import of one module, where a call asks for that change. -/
theorem change_collected (call : ImportCall) {f : Import → Import} (asked : call.asks = true)
    (changed : importOf (calls ++ [call]) call.source = f (importOf calls call.source)) :
    Imports.change call.source f ⟨(sourcesOf calls).map (importOf calls)⟩ =
      ⟨(sourcesOf (calls ++ [call])).map (importOf (calls ++ [call]))⟩ := by
  have sources (list : List String) : (list.map (importOf calls)).map Import.source = list := by
    rw [List.map_map]
    exact List.map_id' list
  have others {list : List String} (apart : call.source ∉ list) :
      list.map (importOf (calls ++ [call])) = list.map (importOf calls) :=
    List.map_congr_left fun source member =>
      importOf_concat_of_ne calls fun same => apart (same ▸ member)
  by_cases known : call.source ∈ sourcesOf calls
  · obtain ⟨front, back, split⟩ := List.append_of_mem known
    have distinct : (sourcesOf calls).Nodup := nodup_eraseDups _
    rw [split, List.nodup_append, List.nodup_cons] at distinct
    obtain ⟨-, ⟨notBack, -⟩, apart⟩ := distinct
    have notFront : call.source ∉ front := fun inside =>
      apart call.source inside call.source List.mem_cons_self rfl
    have before : (importOf calls call.source).source ∉
        (front.map (importOf calls)).map Import.source := by
      rw [sources]
      exact notFront
    rw [sourcesOf_concat, if_neg (by simp [known]), split]
    simp only [List.map_append, List.map_cons, others notFront, others notBack, changed]
    exact Imports.change_append_cons f before
  · have new : call.source ∉ ((sourcesOf calls).map (importOf calls)).map Import.source := by
      rw [sources]
      exact known
    rw [Imports.change_of_not_mem f new, sourcesOf_concat, if_pos ⟨asked, known⟩, List.map_append, others known,
      List.map_singleton, changed, importOf_of_not_mem calls known]

theorem addTo_collected (call : ImportCall) :
    call.addTo ⟨(sourcesOf calls).map (importOf calls)⟩ =
      ⟨(sourcesOf (calls ++ [call])).map (importOf (calls ++ [call]))⟩ := by
  cases call with
  | main source name =>
      exact change_collected calls (.main source name)
        (f := fun i => { i with main := some name }) rfl (importOf_concat_main calls source name)
  | named source names =>
      cases names with
      | nil =>
          -- nothing is asked for, so the module is no source because of this call
          have same : importOf (calls ++ [.named source []]) = importOf calls := by
            funext other
            by_cases own : source = other <;>
              simp [importOf, mainOf, namesOf, ImportCall.source, ImportCall.names,
                ImportCall.main?, own]
          rw [sourcesOf_concat, if_neg (by simp [ImportCall.asks]), same]
          rfl
      | cons name names =>
          exact change_collected calls (.named source (name :: names))
            (f := fun i => { i with names := (name :: names).foldl Imports.addName i.names }) rfl
            (importOf_concat_named calls source (name :: names))

end Steps

theorem collect_eq (calls : List ImportCall) :
    collect calls = ⟨(sourcesOf calls).map (importOf calls)⟩ := by
  induction calls using List.reverseRecOn with
  | nil => rfl
  | append_singleton calls call ih =>
      rw [collect, List.foldl_concat, ← collect, ih, addTo_collected]

/-! Lines. -/

theorem pairwise_lt_mergeSort {names : List String} (distinct : names.Nodup) :
    (names.mergeSort fun a b => a ≤ b).Pairwise (· < ·) := by
  have ordered : (names.mergeSort fun a b => a ≤ b).Pairwise fun a b => decide (a ≤ b) = true :=
    List.pairwise_mergeSort (by simpa using fun a b c => String.le_trans)
      (by simpa using String.le_total) names
  have apart : (names.mergeSort fun a b => a ≤ b).Nodup :=
    (List.mergeSort_perm names _).nodup_iff.mpr distinct
  refine List.Pairwise.imp₂ (fun a b before differs => ?_) ordered apart
  exact lt_of_le_of_ne (of_decide_eq_true before) differs

/-- What stands in front of `from`: the default, and the names in braces. -/
def importItems (main : Option String) (names : List String) : List String :=
  main.toList ++
    if names.isEmpty then [] else ["\x7b " ++ String.intercalate ", " names ++ " \x7d"]

/--
Whether a line imports a default and given names, each once and in the order of code points. Nothing stands
in front of `from` only if the name of the default is empty and there are no other names.
-/
def IsImportLine (main : Option String) (given : List String) (source line : String) : Prop :=
  ∃ names : List String, names.Pairwise (· < ·) ∧ (∀ name, name ∈ names ↔ name ∈ given) ∧
    importItems main names ≠ [] ∧
    (String.intercalate ", " (importItems main names) = "" ↔ main = some "" ∧ given = []) ∧
    line = "import " ++ String.intercalate ", " (importItems main names) ++ " from " ++
      stringLiteral source ++ ";"

theorem intercalate_cons_ne_empty {separator first : String} (some : first ≠ "")
    (rest : List String) : String.intercalate separator (first :: rest) ≠ "" := by
  cases rest with
  | nil => simpa using some
  | cons second rest => simp [String.intercalate_cons_cons, some]

theorem intercalate_importItems_eq_empty_iff {main : Option String} {names : List String}
    (items : importItems main names ≠ []) :
    String.intercalate ", " (importItems main names) = "" ↔ main = some "" ∧ names = [] := by
  constructor
  · intro empty
    cases main with
    | none =>
        rw [importItems] at items empty
        split at empty
        · rename_i none
          simp [none] at items
        · exact absurd empty (intercalate_cons_ne_empty (by simp) [])
    | some name =>
        have unnamed : name = "" :=
          by_contra fun named => intercalate_cons_ne_empty named _ empty
        subst unnamed
        cases names with
        | nil => exact ⟨rfl, rfl⟩
        | cons first rest => simp [importItems, String.intercalate_cons_cons] at empty
  · rintro ⟨rfl, rfl⟩
    rfl

/-- A module is a source only if a name or a default is imported from it. -/
theorem importItems_ne_nil {calls : List ImportCall} {source : String}
    (member : source ∈ sourcesOf calls) {names : List String}
    (all : ∀ name, name ∈ names ↔ name ∈ namesOf calls source) :
    importItems (mainOf calls source) names ≠ [] := by
  obtain ⟨call, inside, asked, rfl⟩ := (mem_sourcesOf calls).mp member
  have listed : call ∈ calls.filter fun other => other.source = call.source :=
    List.mem_filter.mpr ⟨inside, by simp⟩
  cases call with
  | named source given =>
      obtain ⟨name, rest, rfl⟩ := List.exists_cons_of_ne_nil (l := given) (by
        rintro rfl
        cases asked)
      have first : name ∈ names :=
        (all name).mpr (List.mem_flatMap.mpr ⟨_, listed, List.mem_cons_self⟩)
      have some : names ≠ [] := List.ne_nil_of_mem first
      simp [importItems, some]
  | main source name =>
      have given : name ∈ (calls.filter fun other => other.source = source).filterMap
          ImportCall.main? := List.mem_filterMap.mpr ⟨_, listed, rfl⟩
      have last : (mainOf calls source).isSome = true := by
        rw [mainOf, List.getLast?_isSome]
        exact List.ne_nil_of_mem given
      obtain ⟨main, found⟩ := Option.isSome_iff_exists.mp last
      simp only [ImportCall.source, importItems, found]
      simp

theorem line_eq (i : Import) :
    i.line = "import " ++
      String.intercalate ", " (importItems i.main (i.names.mergeSort fun a b => a ≤ b)) ++
      " from " ++ stringLiteral i.source ++ ";" := by
  have empty : (i.names.mergeSort fun a b => a ≤ b).isEmpty = i.names.isEmpty := by
    rw [Bool.eq_iff_iff, List.isEmpty_iff_length_eq_zero, List.isEmpty_iff_length_eq_zero,
      List.length_mergeSort]
  rw [Import.line, Import.nameClause, importItems, empty]

theorem isImportLine_importOf {calls : List ImportCall} {source : String}
    (member : source ∈ sourcesOf calls) :
    IsImportLine (mainOf calls source) (namesOf calls source) source
      (importOf calls source).line := by
  have same : ∀ name, name ∈ (namesOf calls source).eraseDups.mergeSort (fun a b => a ≤ b) ↔
      name ∈ namesOf calls source := fun name => by
    rw [List.mem_mergeSort, List.mem_eraseDups]
  have items := importItems_ne_nil member same
  refine ⟨_, pairwise_lt_mergeSort (nodup_eraseDups _), same, items, ?_,
    line_eq (importOf calls source)⟩
  rw [intercalate_importItems_eq_empty_iff items, List.eq_nil_iff_forall_not_mem,
    List.eq_nil_iff_forall_not_mem]
  simp only [same]

/-- A line shows of a list of names only which names it holds. -/
theorem line_congr {source : String} {main : Option String} {names others : List String}
    (distinct : names.Nodup) (othersDistinct : others.Nodup)
    (same : ∀ name, name ∈ names ↔ name ∈ others) :
    Import.line ⟨source, main, names⟩ = Import.line ⟨source, main, others⟩ := by
  have sorted : (names.mergeSort fun a b => a ≤ b) = others.mergeSort fun a b => a ≤ b :=
    (pairwise_lt_mergeSort distinct).eq_of_mem_iff (pairwise_lt_mergeSort othersDistinct)
      fun name => by rw [List.mem_mergeSort, List.mem_mergeSort, same name]
  rw [line_eq, line_eq, sorted]

theorem lines_congr {calls others : List ImportCall} (order : sourcesOf calls = sourcesOf others)
    (mains : ∀ source, mainOf calls source = mainOf others source)
    (names : ∀ source name, name ∈ namesOf calls source ↔ name ∈ namesOf others source) :
    (collect calls).lines = (collect others).lines := by
  rw [collect_eq, collect_eq, Imports.lines, Imports.lines, order, List.map_map, List.map_map]
  refine List.map_congr_left fun source _ => ?_
  show (importOf calls source).line = (importOf others source).line
  rw [importOf, importOf, mains source]
  refine line_congr (nodup_eraseDups _) (nodup_eraseDups _) fun name => ?_
  rw [List.mem_eraseDups, List.mem_eraseDups, names source name]

theorem mem_namesOf {calls : List ImportCall} {source name : String} :
    name ∈ namesOf calls source ↔
      ∃ names, ImportCall.named source names ∈ calls ∧ name ∈ names := by
  rw [namesOf, List.mem_flatMap]
  constructor
  · rintro ⟨call, listed, inside⟩
    obtain ⟨member, same⟩ := List.mem_filter.mp listed
    cases call with
    | named other names =>
        cases of_decide_eq_true same
        exact ⟨names, member, inside⟩
    | main other name => exact absurd inside List.not_mem_nil
  · rintro ⟨names, member, inside⟩
    exact ⟨_, List.mem_filter.mpr ⟨member, decide_eq_true rfl⟩, inside⟩

section Repeating

variable {before : List ImportCall} {source : String} {names : List String}

theorem sourcesOf_repeated (asked : ImportCall.named source names ∈ before)
    (after : List ImportCall) :
    sourcesOf (before ++ .named source names :: after) = sourcesOf (before ++ after) := by
  cases names with
  | nil => simp [sourcesOf, ImportCall.asks]
  | cons name names =>
      have known : source ∈ (before.filter ImportCall.asks).map ImportCall.source :=
        List.mem_map.mpr ⟨_, List.mem_filter.mpr ⟨asked, rfl⟩, rfl⟩
      have again : (before ++ .named source (name :: names) :: after).filter ImportCall.asks =
          before.filter ImportCall.asks ++
            .named source (name :: names) :: after.filter ImportCall.asks := by
        simp [ImportCall.asks]
      rw [sourcesOf, again, List.map_append, List.map_cons]
      simp only [sourcesOf, List.filter_append, List.map_append]
      exact eraseDups_append_cons known _

theorem mem_namesOf_repeated (asked : ImportCall.named source names ∈ before)
    (after : List ImportCall) {other name : String} :
    name ∈ namesOf (before ++ .named source names :: after) other ↔
      name ∈ namesOf (before ++ after) other := by
  rw [mem_namesOf, mem_namesOf]
  simp only [List.mem_append, List.mem_cons]
  constructor
  · rintro ⟨given, early | again | late, inside⟩
    · exact ⟨given, .inl early, inside⟩
    · obtain ⟨rfl, rfl⟩ := ImportCall.named.inj again
      exact ⟨given, .inl asked, inside⟩
    · exact ⟨given, .inr late, inside⟩
  · rintro ⟨given, early | late, inside⟩
    · exact ⟨given, .inl early, inside⟩
    · exact ⟨given, .inr (.inr late), inside⟩

theorem lines_repeated (asked : ImportCall.named source names ∈ before)
    (after : List ImportCall) :
    (collect (before ++ .named source names :: after)).lines =
      (collect (before ++ after)).lines := by
  refine lines_congr (sourcesOf_repeated asked after) (fun other => ?_) fun other name =>
    mem_namesOf_repeated asked after
  by_cases own : source = other <;> simp [mainOf, ImportCall.source, ImportCall.main?, own]

end Repeating

/--
The imports of a file in their canonical form: one line for each module that something is imported
from, in the order of first use, with the last default and all names. A repeated request for names
changes no line, and neither does another order of the calls that keeps the order of the modules and
their defaults.
-/
theorem collect_canonical (calls : List ImportCall) :
    (List.Forall₂ (fun source line =>
        IsImportLine (mainOf calls source) (namesOf calls source) source line)
      (sourcesOf calls) (collect calls).lines ∧ (sourcesOf calls).Nodup) ∧
    (∀ before after source names, calls = before ++ after → .named source names ∈ before →
      (collect (before ++ .named source names :: after)).lines = (collect calls).lines) ∧
    ∀ others : List ImportCall, others.Perm calls → sourcesOf others = sourcesOf calls →
      (∀ source, mainOf others source = mainOf calls source) →
      (collect others).lines = (collect calls).lines := by
  refine ⟨⟨?_, nodup_eraseDups _⟩, ?_, ?_⟩
  · rw [collect_eq, Imports.lines, List.map_map, List.forall₂_map_right_iff, List.forall₂_same]
    exact fun source member => isImportLine_importOf member
  · rintro before after source names rfl asked
    exact lines_repeated asked after
  · intro others moved order mains
    refine lines_congr order mains fun source name => ?_
    rw [mem_namesOf, mem_namesOf]
    simp only [moved.mem_iff]

/-- Nothing is imported by a default without a name. -/
theorem collect_unnamed :
    sourcesOf [.main "./m" ""] = ["./m"] ∧
      (collect [.main "./m" ""]).lines =
        ["import " ++ "" ++ " from " ++ stringLiteral "./m" ++ ";"] := by
  decide +kernel

theorem collect_canonical_swapped :
    [ImportCall.named "./client" ["b"], .main "./client" "client"].Perm
        [.main "./client" "client", .named "./client" ["b"]] ∧
      (collect [.named "./client" ["b"], .main "./client" "client"]).lines =
        (collect [.main "./client" "client", .named "./client" ["b"]]).lines :=
  ⟨.swap _ _ _, (collect_canonical [.main "./client" "client", .named "./client" ["b"]]).2.2 _
    (.swap _ _ _) (by decide) fun source => by
      by_cases own : "./client" = source
      · subst own
        rfl
      · simp [mainOf, ImportCall.source, own]⟩

example : (collect [.named "./client" ["b"], .main "./client" "client", .named "./util" [],
      .named "./client" ["a", "b"]]).lines =
    ["import client, \x7b a, b \x7d from \"./client\";"] := by
  cbv

end ApiCompiler.Script
