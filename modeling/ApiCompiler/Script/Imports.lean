import ApiCompiler.Script.Literal

/-!
The imports of a source file, one line per module in the order of first use.
-/

namespace ApiCompiler.Script

/-- What a file imports from one module: the names once each, in the order they were asked for. -/
structure Import where
  source : String
  main : Option String := none
  names : List String := []
  deriving DecidableEq

structure Imports where
  list : List Import := []
  deriving DecidableEq

namespace Imports

private def changeIn (source : String) (f : Import → Import) : List Import → List Import
  | [] => [f { source }]
  | first :: rest =>
      if first.source = source then f first :: rest else first :: changeIn source f rest

/-- Changes the import of a module, which is added at the end if the file has none yet. -/
def change (source : String) (f : Import → Import) (imports : Imports) : Imports :=
  ⟨changeIn source f imports.list⟩

private theorem changeIn_append {source : String} (f : Import → Import) {front : List Import}
    (other : source ∉ front.map Import.source) (list : List Import) :
    changeIn source f (front ++ list) = front ++ changeIn source f list := by
  induction front with
  | nil => rfl
  | cons first rest ih =>
      rw [List.map_cons, List.mem_cons, not_or] at other
      rw [List.cons_append, changeIn, if_neg (Ne.symm other.1), ih other.2, List.cons_append]

theorem change_append_cons (f : Import → Import) {front back : List Import} {i : Import}
    (other : i.source ∉ front.map Import.source) :
    change i.source f ⟨front ++ i :: back⟩ = ⟨front ++ f i :: back⟩ := by
  rw [change, changeIn_append f other, changeIn, if_pos rfl]

theorem change_of_not_mem {source : String} (f : Import → Import) {imports : Imports}
    (new : source ∉ imports.list.map Import.source) :
    imports.change source f = ⟨imports.list ++ [f { source }]⟩ := by
  have last := changeIn_append f new []
  rw [List.append_nil] at last
  rw [change, last, changeIn]

/-- Adds a name at the end if it is not there yet. -/
def addName (names : List String) (name : String) : List String :=
  if names.contains name then names else names ++ [name]

private theorem foldl_addName {known names : List String} (distinct : (known ++ names).Nodup) :
    names.foldl addName known = known ++ names := by
  induction names generalizing known with
  | nil => simp
  | cons name names ih =>
      have new : name ∉ known := by
        intro inside
        exact (List.nodup_append.mp distinct).2.2 name inside name (by simp) rfl
      rw [List.foldl_cons, addName, if_neg (by simpa using new), ih (by simpa using distinct)]
      simp

/-- Imports names from a module; without names nothing is imported. -/
def addNamed (source : String) (names : List String) (imports : Imports) : Imports :=
  if names.isEmpty then imports
  else imports.change source fun i => { i with names := names.foldl addName i.names }

theorem addNamed_of_not_mem {source : String} {names : List String} {imports : Imports}
    (new : source ∉ imports.list.map Import.source) (distinct : names.Nodup) :
    imports.addNamed source names =
      ⟨imports.list ++ if names = [] then [] else [{ source := source, names := names }]⟩ := by
  cases names with
  | nil => simp [addNamed]
  | cons name names =>
      have collected := @foldl_addName [] (name :: names) distinct
      rw [addNamed, if_neg (by simp), change_of_not_mem _ new, if_neg (by simp)]
      simp only [collected, List.nil_append]

/-- Imports the default export of a module under a name, in place of an earlier one. -/
def addDefault (source name : String) (imports : Imports) : Imports :=
  imports.change source fun i => { i with main := some name }

theorem addDefault_of_not_mem {source : String} (name : String) {imports : Imports}
    (new : source ∉ imports.list.map Import.source) :
    imports.addDefault source name = ⟨imports.list ++ [{ source := source, main := some name }]⟩ :=
  change_of_not_mem _ new

end Imports

/-- The names in braces, in the order of their code points. -/
def Import.nameClause (i : Import) : List String :=
  if i.names.isEmpty then []
  else ["\x7b " ++ String.intercalate ", " (i.names.mergeSort fun a b => a ≤ b) ++ " \x7d"]

def Import.line (i : Import) : String :=
  "import " ++ String.intercalate ", " (i.main.toList ++ i.nameClause) ++ " from " ++
    stringLiteral i.source ++ ";"

def Imports.lines (imports : Imports) : List String :=
  imports.list.map Import.line

end ApiCompiler.Script
