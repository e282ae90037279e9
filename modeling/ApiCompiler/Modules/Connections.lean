import ApiCompiler.Component.Connection
import ApiCompiler.Modules.ActionGroup

/-!
The module of connections.
-/

namespace ApiCompiler.Modules

open Component Script

def connectionsPath : String := "src/connections.ts"

/-- Connections by ascending priority, those of equal priority in their own order. -/
def byPriority (connections : List Connection) : List Connection :=
  connections.mergeSort fun a b => a.priority ≤ b.priority

def credentialSteps (key : String) (c : Credential) : Step :=
  .block (propertyKey key ++ ": \x7b") "\x7d,"
    ([.member "label" (stringLiteral c.label), .member "type" (stringLiteral c.type)] ++
      Step.member? "required" (c.required.map boolLiteral) ++
      Step.member? "shown" (c.shown.map boolLiteral) ++
      Step.member? "placeholder" (c.placeholder.map stringLiteral) ++
      Step.member? "default" (c.default.map stringLiteral) ++
      Step.member? "example" (c.sample.map stringLiteral) ++
      Step.member? "comments" (c.comments.map stringLiteral))

def connectionSteps (connection : Connection) : Step :=
  let function := if connection.grant.isNone then "connection" else "oauth2Connection"
  .block (function ++ "(\x7b") "\x7d)"
    ([.member "key" (stringLiteral connection.key),
        .member "label" (stringLiteral connection.label)] ++
      Step.member? "comments" (connection.comments.map stringLiteral) ++
      Step.member? "oauth2Type" (connection.grant.map fun grant => "OAuth2Type." ++ grant.name) ++
      [.block "inputs: \x7b" "\x7d,"
        (connection.inputs.map fun (key, c) => credentialSteps key c)])

/-- The module in which every connection is a constant, and their list the default export. -/
def connectionsModule (connections : List Connection) : SourceFile :=
  let plain := if connections.any (·.grant.isNone) then ["connection"] else []
  let oauth :=
    if connections.any (·.grant.isSome) then ["oauth2Connection", "OAuth2Type"] else []
  { path := connectionsPath
    imports := (Imports.addNamed sdkModule plain {}).addNamed sdkModule oauth
    declarations := connections.map fun connection =>
      { name := connection.key, value := .steps [connectionSteps connection], isExported := true }
    defaultExport := some (.text (listLiteral ((byPriority connections).map Connection.key))) }

end ApiCompiler.Modules
