import ApiCompiler.Number.Binary64
import ApiCompiler.Tree.Calendar

/-!
Document trees: what a description file holds once it is read. Objects keep the order of their
members, and a member's name may be any scalar.
-/

namespace ApiCompiler

inductive Scalar
  | null
  | bool (value : Bool)
  | int (value : Int)
  | float (value : Binary64)
  | text (value : String)
  | date (value : Date)
  | time (value : ClockTime)
  | timestamp (value : Timestamp)
  deriving DecidableEq, Inhabited

inductive Value
  | scalar (value : Scalar)
  | list (items : List Value)
  | object (members : List (Scalar × Value))
  deriving Inhabited

namespace Scalar

/-- The integer a truth value or a whole number stands for. -/
def integer? : Scalar → Option Int
  | .bool true => some 1
  | .bool false => some 0
  | .int n => some n
  | .float x => x.toInt?
  | _ => none

/--
Two scalars name the same member. Numbers are compared by value, with the truth values as one and
zero; a number that is not one names no member but its own.
-/
def sameName (a b : Scalar) : Bool :=
  match a.integer?, b.integer? with
  | some m, some n => m = n
  | some _, none => false
  | none, some _ => false
  | none, none =>
      match a, b with
      | .float x, .float y => !x.isNaN && x = y
      | .timestamp s, .timestamp t => s.sameInstant t
      | a, b => a = b

end Scalar

abbrev Members (ν : Type) := List (Scalar × ν)

namespace Members

variable {ν : Type}

def find? (name : String) : Members ν → Option ν
  | [] => none
  | (key, value) :: rest => if key = .text name then some value else find? name rest

/-- Gives a member a value: in place if the object has it, else at the end. -/
def put (name : Scalar) (value : ν) : Members ν → Members ν
  | [] => [(name, value)]
  | (key, old) :: rest =>
      if key.sameName name then (key, value) :: rest else (key, old) :: put name value rest

/-- Members laid over others: those with the same name in place, the rest at the end. -/
def override (base own : Members ν) : Members ν :=
  own.foldl (fun members (name, value) => members.put name value) base

/-- The object written as a list of members, where a later one of the same name wins. -/
def ofList (members : List (Scalar × ν)) : Members ν :=
  override [] members

end Members

namespace Value

def null : Value := .scalar .null
def bool (b : Bool) : Value := .scalar (.bool b)
def int (n : Int) : Value := .scalar (.int n)
def text (s : String) : Value := .scalar (.text s)

def ofOption {α : Type} (f : α → Value) : Option α → Value
  | none => null
  | some a => f a

def record (members : List (String × Value)) : Value :=
  .object (members.map fun (name, value) => (.text name, value))

def member? (name : String) : Value → Option Value
  | .object members => Members.find? name members
  | _ => none

def text? : Value → Option String
  | .scalar (.text s) => some s
  | _ => none

def items? : Value → Option (List Value)
  | .list items => some items
  | _ => none

def members? : Value → Option (Members Value)
  | .object members => some members
  | _ => none

def isNull : Value → Bool
  | .scalar .null => true
  | _ => false

end Value

end ApiCompiler
