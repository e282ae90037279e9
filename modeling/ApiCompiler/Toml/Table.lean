import ApiCompiler.Toml.Text
import ApiCompiler.Tree.Named
import ApiCompiler.Tree.Value

/-!
The tables of a TOML text while it is read. A table that its text has defined may not be defined
again, a table that is only named on the way to another one may; values are never changed.
-/

namespace ApiCompiler.Toml

/-- What a key stands for: a finished value, a table, or a list of tables, the last one open. -/
inductive Node
  | value (value : Value)
  | table (isDefined : Bool) (members : List (String × Node))
  | tables (earlier : List Value) (last : List (String × Node))

abbrev Table := Named Node

mutual
def Node.toValue : Node → Value
  | .value value => value
  | .table _ members => .record (membersToValues members)
  | .tables earlier last => .list (earlier ++ [.record (membersToValues last)])

def membersToValues : List (String × Node) → List (String × Value)
  | [] => []
  | (name, node) :: rest => (name, node.toValue) :: membersToValues rest
end

namespace Table

def toValue (table : Table) : Value :=
  .record (membersToValues table)

/--
Changes the table at a path: of a list of tables the last one, and a new table where there is none
yet. A value in the way is an error.
-/
def change (f : Table → Except Fault Table) : (path : List String) → Table → Except Fault Table
  | [], table => f table
  | name :: path, table =>
      match table.lookup name with
      | none => do return Named.put name (.table false (← change f path [])) table
      | some (.value _) => malformed
      | some (.table isDefined members) => do
          return Named.put name (.table isDefined (← change f path members)) table
      | some (.tables earlier last) => do
          return Named.put name (.tables earlier (← change f path last)) table

def isDefined : (path : List String) → Table → Bool
  | [], _ => false
  | name :: path, table =>
      match table.lookup name with
      | none => false
      | some (.value _) => false
      | some (.table isDefinedHere members) =>
          if path.isEmpty then isDefinedHere else isDefined path members
      | some (.tables _ last) => path.isEmpty || isDefined path last

/-- Gives a key that has no value yet a value. -/
def insert (path : List String) (value : Value) (table : Table) : Except Fault Table :=
  let name := path.getLastD ""
  table.change
    (fun members =>
      if (members.lookup name).isSome then malformed
      else .ok (members ++ [(name, .value value)]))
    path.dropLast

/-- Defines the table at a path, which the text has at most named so far. -/
def define (path : List String) (table : Table) : Except Fault Table :=
  let name := path.getLastD ""
  table.change
    (fun members =>
      match members.lookup name with
      | none => .ok (Named.put name (.table true []) members)
      | some (.table false inner) => .ok (Named.put name (.table true inner) members)
      | some _ => malformed)
    path.dropLast

def append (path : List String) (table : Table) : Except Fault Table :=
  let name := path.getLastD ""
  table.change
    (fun members =>
      match members.lookup name with
      | none => .ok (Named.put name (.tables [] []) members)
      | some (.tables earlier last) =>
          .ok (Named.put name (.tables (earlier ++ [toValue last]) []) members)
      | some _ => malformed)
    path.dropLast

end Table

end ApiCompiler.Toml
