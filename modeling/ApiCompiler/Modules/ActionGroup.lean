import ApiCompiler.Component.Action
import ApiCompiler.Script.SourceFile
import ApiCompiler.Text.Sentence

/-!
Modules of actions: one for each group tag, and the index that merges them.
-/

namespace ApiCompiler.Modules

open Component Script

def actionsFolder : String := "src/actions"

def sdkModule : String := "@prismatic-io/spectral"

def httpClientModule : String := "@prismatic-io/spectral/dist/clients/http"

/-- The verbs for which a client has a method; any other goes through its general request. -/
def clientMethods : List String := ["get", "put", "post", "delete", "options", "head", "patch"]

/-- Names that the index of actions binds besides the groups it imports. -/
def indexNames : List String := ["baseUrl", "buildRawRequestAction"]

/-- The actions by tag, in the order in which the tags appear. -/
def groupActions (actions : List Action) : List (String × List Action) :=
  let tags := (actions.map Action.groupTag).eraseDups
  tags.map fun tag => (tag, actions.filter fun action => action.groupTag = tag)

def conversionExpression (c : Conversion) : String :=
  "(value) => util.types." ++ c.name ++ "(value)" ++ if c.coalesce then " || undefined" else ""

private def choiceLine (c : Choice) : Step :=
  .line ("\x7b label: " ++ stringLiteral c.label ++ ", value: " ++ stringLiteral c.value ++
    " \x7d,")

def inputSteps (key : String) (input : Input) : Step :=
  let choices := input.choices.getD []
  .block (propertyKey key ++ ": \x7b") "\x7d,"
    ([.member "label" (stringLiteral input.label), .member "type" (stringLiteral input.type)] ++
      Step.member? "required" (input.required.map boolLiteral) ++
      Step.member? "default" (input.default.map stringLiteral) ++
      (if choices.isEmpty then [] else [.block "model: [" "]," (choices.map choiceLine)]) ++
      Step.member? "example" (input.sample.map stringLiteral) ++
      Step.member? "clean" (input.conversion.map conversionExpression) ++
      Step.member? "comments" ((input.comments.bind String.description?).map stringLiteral))

/-- An entry of an object literal: the shorthand where the key is the name itself. -/
def bindingEntry (b : Binding) : String :=
  if b.key = b.wireName then b.key else stringLiteral b.wireName ++ ": " ++ b.key

def objectLiteral (bindings : List Binding) : String :=
  if bindings.isEmpty then "\x7b\x7d"
  else "\x7b " ++ String.intercalate ", " (bindings.map bindingEntry) ++ " \x7d"

def requestCall (plan : RequestPlan) : String :=
  let url := templateLiteral plan.path
  let query := plan.query.toList.map fun bindings => "params: " ++ objectLiteral bindings
  if clientMethods.contains plan.verb then
    let arguments :=
      url :: plan.body.toList.map objectLiteral ++ query.map fun text => "\x7b " ++ text ++ " \x7d"
    "client." ++ plan.verb ++ "(" ++ String.intercalate ", " arguments ++ ")"
  else
    let options :=
      ["method: " ++ stringLiteral plan.verb, "url: " ++ url] ++
        plan.body.toList.map (fun bindings => "data: " ++ objectLiteral bindings) ++ query
    "client.request(\x7b " ++ String.intercalate ", " options ++ " \x7d)"

def performSteps (plan : RequestPlan) : Step :=
  let parameters := String.intercalate ", " ("connection" :: plan.arguments)
  .block ("perform: async (context, \x7b " ++ parameters ++ " \x7d) => \x7b") "\x7d,"
    [.line "const client = createClient(connection);",
      .line ("const \x7b data \x7d = await " ++ requestCall plan ++ ";"),
      .line "return \x7b data \x7d;"]

def actionSteps (action : Action) : Step :=
  .block "action(\x7b" "\x7d)"
    [.block "display: \x7b" "\x7d,"
        [.member "label" (stringLiteral action.display.label),
          .member "description"
            (stringLiteral (action.display.description.description?.getD ""))],
      performSteps action.request,
      .block "inputs: \x7b" "\x7d,"
        (action.inputs.map fun (key, input) => inputSteps key input)]

private def objectOf (lines : List String) : Expression :=
  .steps [.block "\x7b" "\x7d" (lines.map .line)]

def groupModule (tag : String) (actions : List Action) : SourceFile :=
  { path := actionsFolder ++ "/" ++ tag ++ ".ts"
    imports :=
      (Imports.addNamed sdkModule ["action", "util"] {}).addNamed "../client" ["createClient"]
    declarations := actions.map fun action =>
      { name := action.key, value := .steps [actionSteps action] }
    defaultExport := some (objectOf (actions.map fun action => action.key ++ ",")) }

/-- The name under which the index imports a group. -/
def importName (tag : String) : String :=
  if indexNames.contains tag then tag ++ "Group" else tag

def indexModule (tags : List String) : SourceFile :=
  { path := actionsFolder ++ "/index.ts"
    imports :=
      tags.foldl (fun imports tag => imports.addDefault ("./" ++ tag) (importName tag))
        ((Imports.addNamed httpClientModule ["buildRawRequestAction"] {}).addNamed
          "../client" ["baseUrl"])
    defaultExport := some (objectOf
      (tags.map (fun tag => "..." ++ importName tag ++ ",") ++
        ["rawRequest: buildRawRequestAction(baseUrl),"])) }

def actionModules (actions : List Action) : List SourceFile :=
  let groups := groupActions actions
  groups.map (fun (tag, members) => groupModule tag members) ++
    [indexModule (groups.map Prod.fst)]

end ApiCompiler.Modules
