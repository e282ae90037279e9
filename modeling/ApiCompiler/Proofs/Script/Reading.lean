import ApiCompiler.Json.Reader
import ApiCompiler.Script.Literal

/-!
Reading the calls that generated scripts make: names, texts, templates and object literals as they
are written, and what they stand for when some names have values.
-/

namespace ApiCompiler.Script

/-- A part of a template: a character, or the name of an interpolated value. -/
inductive Piece
  | character (c : Char)
  | hole (name : String)
  deriving DecidableEq

/-- An operand of a call. The shorthand of a member has the name itself as its operand. -/
inductive Operand
  | name (name : String)
  | text (value : String)
  | template (pieces : List Piece)
  | object (members : List (String × Operand))

structure Call where
  method : String
  operands : List Operand

/-! Reading. -/

def readName? (text : List Char) : Option (String × List Char) :=
  match text with
  | [] => none
  | c :: _ =>
      if isNameStart c then
        some (String.ofList (text.takeWhile isNamePart), text.dropWhile isNamePart)
      else none

/-- The text after an opening quote, and what follows the closing one. -/
def readText? (text : List Char) : Option (String × List Char) :=
  (Json.readQuoted text (text.length + 1) [] text).toOption

/--
The pieces of a template up to its closing backtick, where the name of an interpolation may be open.
A carriage return ends a line like a line feed does.
-/
def readPieces? : (name : Option (List Char)) → (text : List Char) → Option (List Piece × List Char)
  | _, [] => none
  | some name, '\x7d' :: rest => do
      let (key, more) ← readName? name
      let (pieces, rest) ← readPieces? none rest
      if more.isEmpty then some (.hole key :: pieces, rest) else none
  | some name, c :: rest => readPieces? (some (name ++ [c])) rest
  | none, '\x60' :: rest => some ([], rest)
  | none, '\\' :: '\\' :: rest => do
      let (pieces, rest) ← readPieces? none rest
      return (.character '\\' :: pieces, rest)
  | none, '\\' :: '\x60' :: rest => do
      let (pieces, rest) ← readPieces? none rest
      return (.character '\x60' :: pieces, rest)
  | none, '\\' :: _ => none
  | none, '\r' :: '\n' :: rest => do
      let (pieces, rest) ← readPieces? none rest
      return (.character '\n' :: pieces, rest)
  | none, '\r' :: rest => do
      let (pieces, rest) ← readPieces? none rest
      return (.character '\n' :: pieces, rest)
  | none, '$' :: '\x7b' :: rest => readPieces? (some []) rest
  | none, c :: rest => do
      let (pieces, rest) ← readPieces? none rest
      return (.character c :: pieces, rest)

mutual
/-- An operand; the number bounds how often objects and their members are opened. -/
def readOperand? : Nat → List Char → Option (Operand × List Char)
  | 0, _ => none
  | fuel + 1, text =>
      match text with
      | '"' :: rest => do
          let (value, rest) ← readText? rest
          return (.text value, rest)
      | '\x60' :: rest => do
          let (pieces, rest) ← readPieces? none rest
          return (.template pieces, rest)
      | '\x7b' :: '\x7d' :: rest => some (.object [], rest)
      | '\x7b' :: ' ' :: rest => do
          let (members, rest) ← readMembers? fuel rest
          return (.object members, rest)
      | _ => do
          let (name, rest) ← readName? text
          return (.name name, rest)

def readMembers? : Nat → List Char → Option (List (String × Operand) × List Char)
  | 0, _ => none
  | fuel + 1, text => do
      let (member, rest) ← readMember? fuel text
      match rest with
      | ',' :: ' ' :: rest => do
          let (members, rest) ← readMembers? fuel rest
          return (member :: members, rest)
      | ' ' :: '\x7d' :: rest => some ([member], rest)
      | _ => none

def readMember? : Nat → List Char → Option ((String × Operand) × List Char)
  | 0, _ => none
  | fuel + 1, text =>
      match text with
      | '"' :: rest => do
          let (name, rest) ← readText? rest
          let rest ← Text.after? [':', ' '] rest
          let (operand, rest) ← readOperand? fuel rest
          return ((name, operand), rest)
      | _ => do
          let (name, rest) ← readName? text
          match rest with
          | ':' :: ' ' :: rest => do
              let (operand, rest) ← readOperand? fuel rest
              return ((name, operand), rest)
          | _ => return ((name, .name name), rest)
end

def readOperands? : Nat → List Char → Option (List Operand × List Char)
  | 0, _ => none
  | fuel + 1, text => do
      let (operand, rest) ← readOperand? fuel text
      match rest with
      | ',' :: ' ' :: rest => do
          let (operands, rest) ← readOperands? fuel rest
          return (operand :: operands, rest)
      | ')' :: rest => some ([operand], rest)
      | _ => none

/-- A call of a method of the client, with nothing after it. -/
def readCall? (text : String) : Option Call := do
  let rest ← Text.after? "client.".toList text.toList
  let (method, rest) ← readName? rest
  let rest ← Text.after? ['('] rest
  let (operands, rest) ← readOperands? text.length rest
  if rest.isEmpty then some ⟨method, operands⟩ else none

/-! What a call stands for. -/

/-- A value in a call: one that a name stands for, or one that the call itself makes. -/
inductive Datum (ν : Type)
  | given (value : ν)
  | text (value : String)
  | record (members : List (String × Datum ν))

/-- Values by name, and how a template shows them. -/
structure Scope (ν : Type) where
  value? : String → Option ν
  shown : ν → String

variable {ν : Type}

def Piece.text? (scope : Scope ν) : Piece → Option String
  | .character c => some (String.singleton c)
  | .hole name => (scope.value? name).map scope.shown

mutual
def Operand.evaluate? (scope : Scope ν) : Operand → Option (Datum ν)
  | .name name => (scope.value? name).map .given
  | .text value => some (.text value)
  | .template pieces => (pieces.mapM (Piece.text? scope)).map fun texts => .text (String.join texts)
  | .object members => (evaluateMembers? scope members).map .record

def evaluateMembers? (scope : Scope ν) :
    List (String × Operand) → Option (List (String × Datum ν))
  | [] => some []
  | (name, operand) :: rest => do
      let value ← operand.evaluate? scope
      return (name, value) :: (← evaluateMembers? scope rest)
end

/-- A request with the values of its query and, if it has one, of its body by name. -/
structure Request (ν : Type) where
  verb : String
  url : String
  query : List (String × ν)
  body : Option (List (String × ν))

namespace Datum

def text? : Datum ν → Option String
  | .text value => some value
  | _ => none

/-- The members of an object literal each of which is the value of a name. -/
def pairs? : Datum ν → Option (List (String × ν))
  | .record members =>
      members.mapM fun (name, datum) =>
        match datum with
        | .given value => some (name, value)
        | _ => none
  | _ => none

end Datum

def bodyMethods : List String := ["post", "put", "patch"]

/-- The query of the options of a call; without options there is none. -/
def optionsQuery? : List (Datum ν) → Option (List (String × ν))
  | [] => some []
  | [.record [(name, query)]] => if name = "params" then query.pairs? else none
  | _ => none

/-- The request of a call of one of the methods named after verbs. -/
def methodRequest? (method : String) (arguments : List (Datum ν)) : Option (Request ν) := do
  match arguments with
  | [] => none
  | url :: rest =>
      let url ← url.text?
      if bodyMethods.contains method then
        match rest with
        | [] => none
        | body :: rest => return ⟨method, url, ← optionsQuery? rest, some (← body.pairs?)⟩
      else return ⟨method, url, ← optionsQuery? rest, none⟩

/-- The request of a call of the method that is told everything in one object. -/
def generalRequest? (options : List (String × Datum ν)) : Option (Request ν) := do
  let verb ← (← options.lookup "method").text?
  let url ← (← options.lookup "url").text?
  let body ← (options.lookup "data").mapM Datum.pairs?
  let query ← (options.lookup "params").mapM Datum.pairs?
  return ⟨verb, url, query.getD [], body⟩

def Call.request? (scope : Scope ν) (call : Call) : Option (Request ν) := do
  let arguments ← call.operands.mapM (Operand.evaluate? scope)
  if call.method = "request" then
    match arguments with
    | [.record options] => generalRequest? options
    | _ => none
  else methodRequest? call.method arguments

end ApiCompiler.Script
