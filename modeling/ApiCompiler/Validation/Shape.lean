import ApiCompiler.Tree.Shown
import ApiCompiler.Validation.Check

/-!
Checks of the shape of a value: texts, truth values, integers, lists, objects and records. They
work on every kind of tree whose outermost layer can be seen.
-/

namespace ApiCompiler

/-- The outermost layer of a tree. -/
inductive Layer (ν : Type)
  | scalar (value : Scalar)
  | list (items : List ν)
  | object (members : Members ν)

class Layered (ν : Type) where
  layer : ν → Layer ν

def Value.layer : Value → Layer Value
  | .scalar s => .scalar s
  | .list items => .list items
  | .object members => .object members

instance : Layered Value where
  layer := Value.layer

/-- A member of a record: left out, null, or with a value. -/
inductive Member (α : Type)
  | absent
  | null
  | given (value : α)

namespace Member

variable {α : Type}

def toOption : Member α → Option α
  | .given value => some value
  | .absent => none
  | .null => none

/-- The member as it is written, if it was given at all. -/
def written (name : String) (f : α → Value) : Member α → List (String × Value)
  | .absent => []
  | .null => [(name, .null)]
  | .given value => [(name, f value)]

end Member

/-- A member without null, as it is written if it was given. -/
def writtenOption {α : Type} (name : String) (f : α → Value) : Option α → List (String × Value)
  | none => []
  | some value => [(name, f value)]

namespace Shape

variable {ν α : Type} [Layered ν]

def text (v : ν) : Check String :=
  match Layered.layer v with
  | .scalar (.text s) => .ok s
  | _ => .fail .text

private def truthWords : List (String × Bool) :=
  [("0", false), ("off", false), ("f", false), ("false", false), ("n", false), ("no", false),
    ("1", true), ("on", true), ("t", true), ("true", true), ("y", true), ("yes", true)]

/-- A truth value, zero or one, or one of the words for them in any letter case. -/
def truth (v : ν) : Check Bool :=
  let ofInt (n : Int) : Check Bool :=
    if n = 0 then .ok false else if n = 1 then .ok true else .fail .truthText
  match Layered.layer v with
  | .scalar (.bool b) => .ok b
  | .scalar (.int n) => ofInt n
  | .scalar (.float x) =>
      match x.toInt? with
      | some n => ofInt n
      | none => .fail .truth
  | .scalar (.text s) =>
      match truthWords.lookup (String.ofList (s.toList.map Char.toLower)) with
      | some b => .ok b
      | none => .fail .truthText
  | _ => .fail .truth

/-- An integer in digits, with a sign, underscores or a fraction of zeros if need be. -/
private def integerText? (text : List Char) : Option Int :=
  let core := Text.trim text
  let whole := core.takeWhile (· ≠ '.')
  let fraction := core.drop (whole.length + 1)
  if core.all (fun c => c.toNat < 0x80) && fraction.all (· = '0') &&
      (whole.length = core.length || !fraction.isEmpty) then
    Text.readInteger? whole
  else none

def integer (v : ν) : Check Int :=
  match Layered.layer v with
  | .scalar (.bool b) => .ok (if b then 1 else 0)
  | .scalar (.int n) => .ok n
  | .scalar (.float x) =>
      if x.isNaN || x.isInfinite then .fail .finite
      else
        match x.toInt? with
        | some n => .ok n
        | none => .fail .fraction
  | .scalar (.text s) =>
      match integerText? s.toList with
      | some n => .ok n
      | none => .fail .integerText
  | _ => .fail .integer

def natural (v : ν) : Check Nat :=
  (integer v).andThen fun n => if 0 ≤ n then .ok n.toNat else .fail .negative

def checkItems (f : ν → Check α) (items : List ν) : Check (List α) :=
  Check.all (items.zipIdx.map fun (item, i) => (f item).within (toString i))

def list (f : ν → Check α) (v : ν) : Check (List α) :=
  match Layered.layer v with
  | .list items => checkItems f items
  | _ => .fail .list

/-- A list of fixed make, which reports otherwise under a name of its own. -/
def tuple (f : ν → Check α) (v : ν) : Check (List α) :=
  match Layered.layer v with
  | .list items => checkItems f items
  | _ => .fail .tuple

def nameStep : Scalar → String
  | .text s => s
  | .bool b => if b then "1" else "0"
  | name => String.ofList name.shown

/-- An object whose member names are texts and whose values all pass a check. -/
def dictionary (f : ν → Check α) (v : ν) : Check (List (String × α)) :=
  match Layered.layer v with
  | .object members =>
      Check.all (members.map fun (name, value) =>
        let key : Check String :=
          match name with
          | .text s => .ok s
          | _ => (Check.fail .text).within "[key]"
        ((Prod.mk <$> key <*> f value : Check (String × α))).within (nameStep name))
  | _ => .fail .object

def nullable (f : ν → Check α) (v : ν) : Check (Option α) :=
  match Layered.layer v with
  | .scalar .null => .ok none
  | _ => some <$> f v

def record (name : String) (f : Members ν → Check α) (v : ν) : Check α :=
  match Layered.layer v with
  | .object members => f members
  | _ => .fail (.record name)

end Shape

namespace Members

variable {ν α : Type} [Layered ν]

/-- The first of several names that the object has a member for, with the member. -/
def pick (names : List String) (members : Members ν) : Option (String × ν) :=
  names.findSome? fun name => (members.find? name).map fun value => (name, value)

/-- A member that must be there, under the first of its names. -/
def required (names : List String) (f : ν → Check α) (members : Members ν) : Check α :=
  match members.pick names with
  | some (name, value) => (f value).within name
  | none => (Check.fail .missing).within (names.headD "")

/-- A member that may be left out but not be null. -/
def optional (names : List String) (f : ν → Check α) (members : Members ν) : Check (Option α) :=
  match members.pick names with
  | some (name, value) => some <$> (f value).within name
  | none => .ok none

/-- A member that may be left out or null. -/
def nullable (names : List String) (f : ν → Check α) (members : Members ν) : Check (Member α) :=
  match members.pick names with
  | none => .ok .absent
  | some (name, value) =>
      match Layered.layer value with
      | .scalar .null => .ok .null
      | _ => .given <$> (f value).within name

/-- The members under none of the names that a record has read. -/
def undeclared (declared : List (List String)) (members : Members ν) : Members ν :=
  let used := declared.filterMap fun names => (members.pick names).map Prod.fst
  members.filter fun (name, _) =>
    match name with
    | .text s => !used.contains s
    | _ => true

def extras (declared : List (List String)) (f : ν → α) (members : Members ν) :
    Check (List (String × α)) :=
  Check.all ((members.undeclared declared).map fun (name, value) =>
    match name with
    | .text s => .ok (s, f value)
    | _ => (Check.fail .memberName).within (Shape.nameStep name))

def noExtras (declared : List (List String)) (members : Members ν) : Check Unit :=
  (fun _ => ()) <$> Check.all ((members.undeclared declared).map fun (name, _) =>
    match name with
    | .text s => (Check.fail .extra : Check Unit).within s
    | _ => (Check.fail .memberName).within (Shape.nameStep name))

end Members

end ApiCompiler
