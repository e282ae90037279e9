import ApiCompiler.Openapi.Expansion

/-!
Operations of an interface: their parameters, request bodies, and the paths they belong to.
-/

namespace ApiCompiler.Openapi

structure Parameter where
  name : String
  place : String
  description : Member String
  required : Member Bool
  schema : Member (Node Schema)
  extras : List (String × Value)

namespace Parameter

def check : Expansion → Check Parameter :=
  Shape.record "Parameter" fun m =>
    Parameter.mk <$> m.required ["name"] Shape.text <*>
      m.required ["in", "in_"] Shape.text <*>
      m.nullable ["description"] Shape.text <*>
      m.nullable ["required"] Shape.truth <*>
      m.nullable ["schema", "schema_"] (Node.check Schema.check) <*>
      m.extras [["name"], ["in", "in_"], ["description"], ["required"], ["schema", "schema_"]]
        Expansion.plain

def dump (p : Parameter) : Value :=
  .record ([("name", .text p.name), ("in", .text p.place)] ++
    p.description.written "description" .text ++ p.required.written "required" .bool ++
    p.schema.written "schema" (Node.dump Schema.dump) ++ p.extras)

/-- The value given as an example next to the schema. -/
def sample (p : Parameter) : Option Value :=
  match p.extras.lookup "example" with
  | some value => if value.isNull then none else some value
  | none => none

end Parameter

structure MediaType where
  schema : Member (Node Schema)
  extras : List (String × Value)

namespace MediaType

def check : Expansion → Check MediaType :=
  Shape.record "MediaType" fun m =>
    MediaType.mk <$> m.nullable ["schema", "schema_"] (Node.check Schema.check) <*>
      m.extras [["schema", "schema_"]] Expansion.plain

def dump (t : MediaType) : Value :=
  .record (t.schema.written "schema" (Node.dump Schema.dump) ++ t.extras)

end MediaType

structure RequestBody where
  description : Member String
  required : Member Bool
  content : Option (List (String × MediaType))
  extras : List (String × Value)

namespace RequestBody

def check : Expansion → Check RequestBody :=
  Shape.record "RequestBody" fun m =>
    RequestBody.mk <$> m.nullable ["description"] Shape.text <*>
      m.nullable ["required"] Shape.truth <*>
      m.optional ["content"] (Shape.dictionary MediaType.check) <*>
      m.extras [["description"], ["required"], ["content"]] Expansion.plain

def dump (b : RequestBody) : Value :=
  .record (b.description.written "description" .text ++ b.required.written "required" .bool ++
    writtenOption "content"
      (fun types => .record (types.map fun (name, type) => (name, type.dump))) b.content ++
    b.extras)

end RequestBody

structure Operation where
  operationId : Member String
  summary : Member String
  description : Member String
  tags : Member (List String)
  parameters : Option (List (Node Parameter))
  requestBody : Member (Node RequestBody)
  extras : List (String × Value)

namespace Operation

def check : Expansion → Check Operation :=
  Shape.record "Operation" fun m =>
    Operation.mk <$> m.nullable ["operationId"] Shape.text <*>
      m.nullable ["summary"] Shape.text <*>
      m.nullable ["description"] Shape.text <*>
      m.nullable ["tags"] (Shape.list Shape.text) <*>
      m.optional ["parameters"] (Shape.list (Node.check Parameter.check)) <*>
      m.nullable ["requestBody"] (Node.check RequestBody.check) <*>
      m.extras [["operationId"], ["summary"], ["description"], ["tags"], ["parameters"],
        ["requestBody"]] Expansion.plain

private def dumpNodes (nodes : List (Node Parameter)) : Value :=
  .list (nodes.map (Node.dump Parameter.dump))

def dump (o : Operation) : Value :=
  .record (o.operationId.written "operationId" .text ++ o.summary.written "summary" .text ++
    o.description.written "description" .text ++
    o.tags.written "tags" (fun tags => .list (tags.map .text)) ++
    writtenOption "parameters" dumpNodes o.parameters ++
    o.requestBody.written "requestBody" (Node.dump RequestBody.dump) ++ o.extras)

end Operation

inductive Verb
  | get
  | put
  | post
  | delete
  | options
  | head
  | patch
  | trace
  deriving DecidableEq

namespace Verb

/-- All verbs, in the order in which the operations of a path are taken. -/
def all : List Verb :=
  [.get, .put, .post, .delete, .options, .head, .patch, .trace]

def name : Verb → String
  | .get => "get"
  | .put => "put"
  | .post => "post"
  | .delete => "delete"
  | .options => "options"
  | .head => "head"
  | .patch => "patch"
  | .trace => "trace"

end Verb

structure PathItem where
  summary : Member String
  description : Member String
  parameters : Option (List (Node Parameter))
  operation : Verb → Member Operation
  extras : List (String × Value)

namespace PathItem

private def ofList (operations : List (Verb × Member Operation)) (verb : Verb) :
    Member Operation :=
  (operations.lookup verb).getD .absent

def check : Expansion → Check PathItem :=
  Shape.record "PathItem" fun m =>
    PathItem.mk <$> m.nullable ["summary"] Shape.text <*>
      m.nullable ["description"] Shape.text <*>
      m.optional ["parameters"] (Shape.list (Node.check Parameter.check)) <*>
      (ofList <$> Check.all (Verb.all.map fun verb =>
        (verb, ·) <$> m.nullable [verb.name] Operation.check)) <*>
      m.extras ([["summary"], ["description"], ["parameters"]] ++
        Verb.all.map fun verb => [verb.name]) Expansion.plain

def dump (item : PathItem) : Value :=
  .record (item.summary.written "summary" .text ++
    item.description.written "description" .text ++
    writtenOption "parameters" (fun nodes => .list (nodes.map (Node.dump Parameter.dump)))
      item.parameters ++
    Verb.all.flatMap (fun verb => (item.operation verb).written verb.name Operation.dump) ++
    item.extras)

def operations (item : PathItem) : List (Verb × Operation) :=
  Verb.all.filterMap fun verb => (item.operation verb).toOption.map fun o => (verb, o)

end PathItem

end ApiCompiler.Openapi
