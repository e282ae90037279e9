import ApiCompiler.Openapi.Reference

/-!
Schemas: the parts of a data description that inputs are made from. What else a schema says is kept
as undeclared members.
-/

namespace ApiCompiler.Openapi

/-- The type a schema names, or the list of types it allows. -/
inductive TypeName
  | one (name : String)
  | many (names : List String)
  deriving DecidableEq

def TypeName.dump : TypeName → Value
  | .one name => .text name
  | .many names => .list (names.map .text)

inductive Schema
  | mk (title : Member String) (type : Member TypeName) (description : Member String)
      (choices : Member (List Value)) (default : Member Value) (sample : Member Value)
      (required : Member (List String)) (readOnly : Member Bool)
      (allOf : Member (List (Node Schema))) (properties : Member (List (String × Node Schema)))
      (items : Member (Node Schema)) (extras : List (String × Value))

namespace Schema

def type : Schema → Option TypeName
  | .mk _ type _ _ _ _ _ _ _ _ _ _ => type.toOption

def description : Schema → Option String
  | .mk _ _ description _ _ _ _ _ _ _ _ _ => description.toOption

def choices : Schema → List Value
  | .mk _ _ _ choices _ _ _ _ _ _ _ _ => choices.toOption.getD []

def default : Schema → Option Value
  | .mk _ _ _ _ default _ _ _ _ _ _ _ => default.toOption

def sample : Schema → Option Value
  | .mk _ _ _ _ _ sample _ _ _ _ _ _ => sample.toOption

def required : Schema → List String
  | .mk _ _ _ _ _ _ required _ _ _ _ _ => required.toOption.getD []

def isReadOnly : Schema → Bool
  | .mk _ _ _ _ _ _ _ readOnly _ _ _ _ => readOnly.toOption.getD false

def allOf : Schema → List (Node Schema)
  | .mk _ _ _ _ _ _ _ _ allOf _ _ _ => allOf.toOption.getD []

def properties : Schema → List (String × Node Schema)
  | .mk _ _ _ _ _ _ _ _ _ properties _ _ => properties.toOption.getD []

/-- The type, or of several the first that is not null. -/
def primaryType (schema : Schema) : Option String :=
  match schema.type with
  | none => none
  | some (.one name) => some name
  | some (.many names) => names.find? (· ≠ "null")

mutual
/-- The members that were given, in the order of declaration. -/
def dump : Schema → Value
  | .mk title type description choices default sample required readOnly allOf properties items
      extras =>
      .record (title.written "title" .text ++ type.written "type" TypeName.dump ++
        description.written "description" .text ++ choices.written "enum" .list ++
        default.written "default" id ++ sample.written "example" id ++
        required.written "required" (fun names => .list (names.map .text)) ++
        readOnly.written "readOnly" .bool ++
        (match allOf with
          | .absent => []
          | .null => [("allOf", .null)]
          | .given nodes => [("allOf", .list (dumpNodes nodes))]) ++
        (match properties with
          | .absent => []
          | .null => [("properties", .null)]
          | .given named => [("properties", .object (dumpNamed named))]) ++
        (match items with
          | .absent => []
          | .null => [("items", .null)]
          | .given node => [("items", dumpNode node)]) ++
        extras)

def dumpNode : Node Schema → Value
  | .reference r => r.dump
  | .inline schema => dump schema

def dumpNodes : List (Node Schema) → List Value
  | [] => []
  | node :: rest => dumpNode node :: dumpNodes rest

def dumpNamed : List (String × Node Schema) → List (Scalar × Value)
  | [] => []
  | (name, node) :: rest => (.text name, dumpNode node) :: dumpNamed rest
end

end Schema

end ApiCompiler.Openapi
