import ApiCompiler.Component.Action
import ApiCompiler.Derivation.Inputs
import ApiCompiler.Naming.GroupTag

/-!
Actions from operations: one for each path and verb.
-/

namespace ApiCompiler.Derivation

open Openapi Component

def bodyVerbs : List String := ["post", "put", "patch"]

def connectionInput : Input :=
  { wireName := "connection"
    key := "connection"
    label := "Connection"
    type := "connection"
    required := some true }

def operationLabel (path verb : String) : String :=
  verb.toUpper ++ " " ++ path

/-- Names that may give an action its key: the operation's own, then its verb and path. -/
def keyCandidates (path verb : String) (operationId : Option String) : List String :=
  (operationId.toList ++ [verb ++ " " ++ path]).filter fun name =>
    !name.isEmpty && !(Naming.cleanIdentifier name).isEmpty

/-- A key that no action has yet: the first free candidate, else a variation of the first one. -/
def actionKey (path verb : String) (operationId : Option String) (seen : List String) :
    Except Problem (String × List String) :=
  match keyCandidates path verb operationId with
  | [] => .error (.declared (.missing "action key" (some (operationLabel path verb))))
  | first :: rest =>
      let keys := (first :: rest).map Naming.cleanIdentifier
      match keys.find? fun key => !seen.contains key with
      | some key => .ok (key, Naming.remember key seen)
      | none => .ok (Naming.uniqueIdentifier first seen)

def interpolateFrom (keyOf : String → String) : List Char → (skip : Nat) → List Char
  | [], _ => []
  | _ :: rest, skip + 1 => interpolateFrom keyOf rest skip
  | c :: rest, 0 =>
      if c = '\x7b' then
        match rest.span (· ≠ '\x7d') with
        | (d :: name, _ :: _) =>
            '$' :: '\x7b' :: (keyOf (String.ofList (d :: name))).toList ++
              '\x7d' :: interpolateFrom keyOf rest (name.length + 2)
        | _ => c :: interpolateFrom keyOf rest 0
      else c :: interpolateFrom keyOf rest 0

/-- The path with an interpolation for each name in braces. -/
def interpolate (keyOf : String → String) (path : String) : String :=
  String.ofList (interpolateFrom keyOf path.toList 0)

/-- The key of the path input for a name; a name without an input stands for itself. -/
def pathKey (inputs : List Input) (name : String) : String :=
  match inputs.find? fun input => input.wireName = name with
  | some input => input.key
  | none => name

def requestPlan (path verb : String) (inputs : OperationInputs) : RequestPlan :=
  { verb
    path := interpolate (pathKey inputs.path) path
    arguments := inputs.all.map Input.key
    body := if bodyVerbs.contains verb then some (inputs.body.map Binding.ofInput) else none
    query := if inputs.query.isEmpty then none else some (inputs.query.map Binding.ofInput) }

def actionOf (path verb : String) (operation : Operation) (key groupTag : String)
    (inputs : OperationInputs) : Action :=
  let given (member : Member String) : Option String :=
    member.toOption.filter fun text => !text.isEmpty
  { key
    groupTag
    display :=
      { label := key.startCase
        description :=
          ((given operation.summary).or (given operation.description)).getD
            (operationLabel path verb) }
    inputs :=
      Named.ofList
        ((connectionInput.key, connectionInput) :: inputs.all.map fun input => (input.key, input))
    request := requestPlan path verb inputs }

def buildAction (path verb : String) (operation : Operation) (shared : List (Node Parameter))
    (seen : List String) : Logged (Action × List String) := do
  let location := operationLabel path verb
  let (key, seen) ←
    Logged.ofExcept (actionKey path verb operation.operationId.toOption seen)
  let inputs ← loggedInputs operation shared location
  let groupTag ← Logged.ofExcept <|
    (Naming.groupTag path).mapError fun fault => .undeclared (.digits fault.count)
  Logged.note .debug .actions ("Built action " ++ key ++ " for " ++ location)
  return (actionOf path verb operation key groupTag inputs, seen)

def pathActions (path : String) (item : PathItem) (seen : List String) :
    Logged (List Action × List String) :=
  item.operations.foldlM
    (fun (actions, seen) (verb, operation) => do
      let (action, seen) ←
        buildAction path verb.name operation (item.parameters.getD []) seen
      return (actions ++ [action], seen))
    ([], seen)

end ApiCompiler.Derivation
