import ApiCompiler.Toml.Scalar
import ApiCompiler.Toml.Table

/-!
Reading TOML: a text is a sequence of lines, each of which gives a key a value or opens a table for
the lines that follow.
-/

namespace ApiCompiler.Toml

mutual
private def readValue : Nat → List Char → Except Fault (Value × List Char)
  | 0, _ => malformed
  | fuel + 1, text =>
      match readString? text with
      | some reading => do
          let (string, rest) ← reading
          return (.text (String.ofList string), rest)
      | none =>
          match text with
          | '[' :: rest => do
              let (items, rest) ← readItems fuel (← skipGap false rest)
              return (.list items, rest)
          | '\x7b' :: rest => do
              match skipSpace rest with
              | '\x7d' :: rest => return (.object [], rest)
              | rest =>
                  let (table, rest) ← readMembers fuel [] rest
                  return (table.toValue, rest)
          | text => do
              let (scalar, rest) ← readScalar text
              return (.scalar scalar, rest)

/-- The items of an array from where one of them or its end may stand. -/
private def readItems : Nat → List Char → Except Fault (List Value × List Char)
  | 0, _ => malformed
  | fuel + 1, text =>
      match text with
      | ']' :: rest => .ok ([], rest)
      | text => do
          let (item, rest) ← readValue fuel text
          match ← skipGap false rest with
          | ']' :: rest => return ([item], rest)
          | ',' :: rest =>
              let (items, rest) ← readItems fuel (← skipGap false rest)
              return (item :: items, rest)
          | _ => malformed

/-- The members of an inline table from where one of them has to stand. -/
private def readMembers : Nat → Table → List Char → Except Fault (Table × List Char)
  | 0, _, _ => malformed
  | fuel + 1, table, text => do
      let (key, value, rest) ← readAssignment fuel text
      let table ← table.insert key value
      match skipSpace rest with
      | '\x7d' :: rest => return (table, rest)
      | ',' :: rest => readMembers fuel table (skipSpace rest)
      | _ => malformed

private def readAssignment : Nat → List Char → Except Fault (List String × Value × List Char)
  | 0, _ => malformed
  | fuel + 1, text => do
      match ← readKey text with
      | (key, '=' :: rest) =>
          let (value, rest) ← readValue fuel (skipSpace rest)
          return (key, value, rest)
      | _ => malformed
end

/-- A text half read: its tables, the one that is open, and those that its keys went through. -/
private structure Draft where
  root : Table := []
  opened : List String := []
  passed : List (List String) := []

namespace Draft

/--
Gives a key of the open table a value. The tables that the parts of the key lead through are defined
by the lines of this table, so none of them may have been defined before.
-/
private def assign (draft : Draft) (key : List String) (value : Value) : Except Fault Draft := do
  let passed := ((List.range key.length).drop 1).map fun n => draft.opened ++ key.take n
  if passed.any fun path => draft.root.isDefined path then malformed
  let root ← draft.root.insert (draft.opened ++ key) value
  return { draft with root, passed := draft.passed ++ passed }

/-- Ends the open table: the tables that its keys went through are defined from now on. -/
private def close (draft : Draft) : Except Fault Draft := do
  let root ← draft.passed.eraseDups.foldlM (fun root path => root.define path) draft.root
  return { draft with root, passed := [] }

/-- Opens a table, or a new last one in a list of tables. -/
private def enter (draft : Draft) (isItem : Bool) (path : List String) : Except Fault Draft := do
  let draft ← draft.close
  let root ← if isItem then draft.root.append path else draft.root.define path
  return { draft with root, opened := path }

end Draft

/-- The heading of a table after its opening brackets. -/
private def readHeading (isItem : Bool) (draft : Draft) (text : List Char) : Except Fault (Draft × List Char) := do
  let (path, rest) ← readKey (skipSpace text)
  let draft ← draft.enter isItem path
  match isItem, rest with
  | false, ']' :: rest => return (draft, rest)
  | true, ']' :: ']' :: rest => return (draft, rest)
  | _, _ => malformed

/-- One line from its first character that is not blank, up to a comment or the line's end. -/
private def readStatement (draft : Draft) (text : List Char) : Except Fault (Draft × List Char) := do
  match text with
  | '[' :: '[' :: rest => readHeading true draft rest
  | '[' :: rest => readHeading false draft rest
  | '#' :: _ => return (draft, text)
  | text =>
      let (key, value, rest) ← readAssignment (text.length + 1) text
      return (← draft.assign key value, rest)

private def readLines : Nat → Draft → List Char → Except Fault Draft
  | 0, _, _ => malformed
  | fuel + 1, draft, text =>
      match skipSpace text with
      | [] => .ok draft
      | '\n' :: rest => readLines fuel draft rest
      | text => do
          let (draft, rest) ← readStatement draft text
          match ← skipComment (skipSpace rest) with
          | [] => return draft
          | '\n' :: rest => readLines fuel draft rest
          | _ => malformed

/-- The value that a TOML text stands for, an object. -/
def read (text : String) : Except Fault Value := do
  let chars := Text.replace ['\r', '\n'] ['\n'] text.toList
  let draft ← readLines (chars.length + 1) {} chars
  return draft.root.toValue

end ApiCompiler.Toml
