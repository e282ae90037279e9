import ApiCompiler.Component.Input
import ApiCompiler.Naming.Identifier
import ApiCompiler.Openapi.Operation
import ApiCompiler.Tree.Named
import ApiCompiler.World.Failure

/-!
Inputs of an action from the parameters and the request body of an operation. Keys are given in the
order path, query, body, and a key already given is never given again.
-/

namespace ApiCompiler.Derivation

open Openapi Component

def jsonContentType : String := "application/json"

/-- Names that every generated function binds besides its inputs. -/
def reservedInputKeys : List String := ["connection", "createClient"]

/-- A node that must not be a reference any more, at a place that a failure tells. -/
def resolved {α : Type} (node : Node α) (location : String) : Except Problem α :=
  match node with
  | .inline value => .ok value
  | .reference r => .error (.declared (.unresolved r.target (some location)))

def inputType (schema : Option Schema) : String × Conversion :=
  match schema.bind Schema.primaryType with
  | some "integer" | some "number" => ("string", { name := "toNumber" })
  | some "boolean" => ("boolean", { name := "toBool" })
  | _ => ("string", { name := "toString", coalesce := true })

def display (value : Value) : Except Problem String :=
  value.display.mapError fun fault => .undeclared (.unwritable fault)

def orElse (first second : String) : String :=
  if first.isEmpty then second else first

/-- The choices for the values of an enumeration; null is none of them. -/
def choicesOf (values : List Value) : Except Problem (Option (List Choice)) := do
  let choices ← (values.filter (!·.isNull)).mapM fun value => do
    let text ← display value
    return (⟨orElse text.startCase text, text⟩ : Choice)
  return if choices.isEmpty then none else some choices

/--
The choices of an input: those of its schema, or of the first schema it is composed of. A truth
value has none.
-/
def inputChoices (schema : Option Schema) (location : String) :
    Except Problem (Option (List Choice)) :=
  match schema with
  | none => .ok none
  | some schema =>
      if schema.primaryType = some "boolean" then .ok none
      else if !schema.choices.isEmpty then choicesOf schema.choices
      else
        match schema.allOf with
        | [] => .ok none
        | first :: _ => do
            let wrapped ← resolved first (location ++ " allOf[0]")
            choicesOf wrapped.choices

def resolveFrom (location : String) :
    (index : Nat) → List (Node Parameter) → Except Problem (List Parameter)
  | _, [] => .ok []
  | index, node :: rest => do
      let parameter ← resolved node (location ++ " parameters[" ++ toString index ++ "]")
      return parameter :: (← resolveFrom location (index + 1) rest)

/--
The parameters of a path with those of an operation: one for each name, at the place of the first
and with the content of the last.
-/
def mergeParameters (shared own : List (Node Parameter)) (location : String) :
    Except Problem (List Parameter) := do
  let parameters ← resolveFrom location 0 (shared ++ own)
  let merged := Named.ofList (parameters.map fun p => (p.name, p))
  return merged.map Prod.snd

structure InputSource where
  wireName : String
  schema : Option Schema
  location : String
  required : Option Bool
  comments : Option String
  sample : Option Value := none

def buildInput (source : InputSource) (seen : List String) :
    Except Problem (Input × List String) := do
  let (type, conversion) := inputType source.schema
  let (key, seen) := Naming.uniqueIdentifier source.wireName seen
  let sample := (source.schema.bind Schema.sample).or source.sample
  let default ← (source.schema.bind Schema.default).mapM display
  let sample ← sample.mapM display
  let choices ← inputChoices source.schema source.location
  return (Input.tidy {
    wireName := source.wireName
    key
    label := orElse source.wireName.startCase source.wireName
    type
    required := source.required
    comments := source.comments
    default
    sample
    choices
    conversion := some conversion }, seen)

def buildParameterInput (parameter : Parameter) (seen : List String) (location : String) :
    Except Problem (Input × List String) := do
  let location := location ++ " parameter '" ++ parameter.name ++ "'"
  let schema ← parameter.schema.toOption.mapM fun node => resolved node location
  buildInput {
    wireName := parameter.name
    schema
    location
    required := parameter.required.toOption
    comments := parameter.description.toOption
    sample := parameter.sample } seen

/-- Inputs made one after the other, each with the keys of those before it in use. -/
def buildEach {α : Type} (build : α → List String → Except Problem (Input × List String)) :
    List α → List String → Except Problem (List Input × List String)
  | [], seen => .ok ([], seen)
  | first :: rest, seen => do
      let (input, seen) ← build first seen
      let (inputs, seen) ← buildEach build rest seen
      return (input :: inputs, seen)

def deriveInputs (parameters : List Parameter) (seen : List String) (location : String) :
    Except Problem (List Input × List String) :=
  buildEach (fun parameter seen => buildParameterInput parameter seen location) parameters seen

def resolveMembers (location : String) :
    (index : Nat) → List (Node Schema) → Except Problem (List Schema)
  | _, [] => .ok []
  | index, node :: rest => do
      let schema ← resolved node (location ++ " allOf[" ++ toString index ++ "]")
      return schema :: (← resolveMembers location (index + 1) rest)

def propertyLocation (location name : String) : String :=
  location ++ " property '" ++ name ++ "'"

/-- The properties of a schema and those it is composed of, and the names of the required ones. -/
def flattenProperties (schema : Schema) (location : String) :
    Except Problem (List (String × Schema) × List String) := do
  let members ← resolveMembers location 0 schema.allOf
  let definitions := (schema :: members).flatMap Schema.properties
  let named := Named.ofList definitions
  let properties ← named.mapM fun (name, node) => do
    return (name, ← resolved node (propertyLocation location name))
  return (properties, (schema :: members).flatMap Schema.required)

/-- The inputs of a request body: one for each property that may be written. -/
def buildBodyInputs (schema : Schema) (seen : List String) (location : String) :
    Except Problem (List Input × List String) := do
  let (properties, required) ← flattenProperties schema location
  let writable := properties.filter fun (_, property) => !property.isReadOnly
  buildEach
    (fun (name, property) seen =>
      buildInput {
        wireName := name
        schema := some property
        location := propertyLocation location name
        required := some (required.contains name)
        comments := property.description } seen)
    writable seen

def bodySchema (operation : Operation) (location : String) : Except Problem (Option Schema) :=
  match operation.requestBody.toOption with
  | none => .ok none
  | some node => do
      let body ← resolved node (location ++ " request body")
      match ((body.content.getD []).lookup jsonContentType).bind fun type =>
          type.schema.toOption with
      | none => return none
      | some schema => return some (← resolved schema (location ++ " request body schema"))

structure OperationInputs where
  path : List Input
  query : List Input
  body : List Input

/-- All inputs, in the order in which their keys were given. -/
def OperationInputs.all (inputs : OperationInputs) : List Input :=
  inputs.path ++ inputs.query ++ inputs.body

def operationInputs (operation : Operation) (shared : List (Node Parameter)) (location : String) :
    Except Problem OperationInputs := do
  let parameters ← mergeParameters shared (operation.parameters.getD []) location
  let (path, seen) ←
    deriveInputs (parameters.filter (·.place = "path")) reservedInputKeys location
  let (query, seen) ← deriveInputs (parameters.filter (·.place = "query")) seen location
  match ← bodySchema operation location with
  | none => return ⟨path, query, []⟩
  | some schema => do
      let (body, _) ← buildBodyInputs schema seen location
      return ⟨path, query, body⟩

def loggedInputs (operation : Operation) (shared : List (Node Parameter)) (location : String) :
    Logged OperationInputs := do
  let inputs ← Logged.ofExcept (operationInputs operation shared location)
  Logged.note .debug .inputs (location ++ ": " ++ toString inputs.path.length ++ " path, " ++
    toString inputs.query.length ++ " query, " ++ toString inputs.body.length ++ " body inputs")
  return inputs

end ApiCompiler.Derivation
