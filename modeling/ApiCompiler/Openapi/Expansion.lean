import ApiCompiler.Openapi.Schema

/-!
Expanded trees: documents in which references give way to their targets. Many places may hold one
target, so an object remembers what it is as a plain value and as a schema, each worked out once
and only when it is asked for.
-/

namespace ApiCompiler.Openapi

inductive Expansion
  | scalar (value : Scalar)
  | list (items : List Expansion)
  | object (members : List (Scalar × Expansion)) (plain : Thunk Value)
      (schema : Thunk (Check Schema))

namespace Expansion

def layer : Expansion → Layer Expansion
  | .scalar s => .scalar s
  | .list items => .list items
  | .object members _ _ => .object members

instance : Layered Expansion where
  layer := layer

mutual
def plain : Expansion → Value
  | .scalar s => .scalar s
  | .list items => .list (plainItems items)
  | .object _ plain _ => plain.get

def plainItems : List Expansion → List Value
  | [] => []
  | item :: rest => plain item :: plainItems rest
end

end Expansion

/-- An object that refers elsewhere, whatever else it says. -/
def isReference (members : Members Expansion) : Bool :=
  (members.find? referenceKey).isSome

def Reference.check (members : Members Expansion) : Check Reference :=
  Reference.mk <$> members.required [referenceKey, "ref"] Shape.text <*>
    members.extras [[referenceKey, "ref"]] Expansion.plain

/-- A node that may be a reference; the object in place is read by a check of its own. -/
def Node.check {α : Type} (f : Expansion → Check α) (e : Expansion) : Check (Node α) :=
  match e with
  | .object members _ _ =>
      if isReference members then .reference <$> (Reference.check members).within referenceStep
      else .inline <$> (f e).within inlineStep
  | _ => .inline <$> (f e).within inlineStep

namespace Schema

def check : Expansion → Check Schema
  | .object _ _ schema => schema.get
  | _ => .fail (.record "Schema")

private def typeName (e : Expansion) : Check TypeName :=
  match (Shape.text e).within "str", (Shape.list Shape.text e).within "list[str]" with
  | .ok name, _ => .ok (.one name)
  | .bad _, .ok names => .ok (.many names)
  | .bad first, .bad second => .bad (first ++ second)

private def declared : List (List String) :=
  [["title"], ["type"], ["description"], ["enum"], ["default"], ["example"], ["required"],
    ["readOnly"], ["allOf"], ["properties"], ["items"]]

/-- The schema an object is, its parts being read already. -/
def ofMembers (members : Members Expansion) : Check Schema :=
  let any (e : Expansion) : Check Value := .ok e.plain
  Schema.mk <$> members.nullable ["title"] Shape.text <*>
    members.nullable ["type"] typeName <*>
    members.nullable ["description"] Shape.text <*>
    members.nullable ["enum"] (Shape.list any) <*>
    members.nullable ["default"] any <*>
    members.nullable ["example"] any <*>
    members.nullable ["required"] (Shape.list Shape.text) <*>
    members.nullable ["readOnly"] Shape.truth <*>
    members.nullable ["allOf"] (Shape.list (Node.check check)) <*>
    members.nullable ["properties"] (Shape.dictionary (Node.check check)) <*>
    members.nullable ["items"] (Node.check check) <*>
    members.extras declared Expansion.plain

end Schema

namespace Expansion

def ofMembers (members : Members Expansion) : Expansion :=
  .object members
    (Thunk.mk fun _ => .object (members.map fun (name, e) => (name, e.plain)))
    (Thunk.mk fun _ => Schema.ofMembers members)

mutual
def ofValue : Value → Expansion
  | .scalar s => .scalar s
  | .list items => .list (ofItems items)
  | .object members => ofMembers (ofNamed members)

def ofItems : List Value → List Expansion
  | [] => []
  | item :: rest => ofValue item :: ofItems rest

def ofNamed : List (Scalar × Value) → List (Scalar × Expansion)
  | [] => []
  | (name, value) :: rest => (name, ofValue value) :: ofNamed rest
end

end Expansion

end ApiCompiler.Openapi
