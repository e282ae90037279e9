import ApiCompiler.Validation.Shape

/-!
References, and nodes that are either a reference or an object in place.
-/

namespace ApiCompiler.Openapi

structure Reference where
  target : String
  extras : List (String × Value)
  deriving Inhabited

def Reference.dump (r : Reference) : Value :=
  .record (("$ref", .text r.target) :: r.extras)

def referenceKey : String := "$ref"

inductive Node (α : Type)
  | reference (r : Reference)
  | inline (value : α)

def Node.dump {α : Type} (f : α → Value) : Node α → Value
  | .reference r => r.dump
  | .inline value => f value

/-- The paths of issues tell which kind of node was read. -/
def referenceStep : String := "reference"

def inlineStep : String := "inline"

end ApiCompiler.Openapi
