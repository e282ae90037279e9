import ApiCompiler.Component.Blueprint
import ApiCompiler.Derivation.Actions
import ApiCompiler.Derivation.Connections
import ApiCompiler.Openapi.Document

/-!
Blueprints from descriptions without references.
-/

namespace ApiCompiler.Derivation

open Openapi Component

/-- Names bound at the top of every generated module of actions. -/
def reservedActionKeys : List String := ["rawRequest", "action", "util", "createClient"]

/-- Names bound at the top of the generated modules of connections and of the client. -/
def reservedConnectionKeys : List String :=
  ["connection", "oauth2Connection", "OAuth2Type", "baseUrl", "connectionKeys", "createClient",
    "createHttpClient", "toAuthorizationHeaders", "util"]

private def nonEmpty (text : String) : Option String :=
  if text.isEmpty then none else some text

/-- The address of the interface: its base path, its first server's, or the one to fall back to. -/
def baseUrl (document : Document) (fallback : Option String) : Except Problem String :=
  let server := ((document.servers.getD []).head?).map Server.resolvedUrl
  match ((document.basePath.toOption.bind nonEmpty).or (server.bind nonEmpty)).or
      (fallback.bind nonEmpty) with
  | some url => .ok url
  | none =>
      .error (.declared (.missing "base URL" (some ("'" ++ document.info.title ++ "'"))))

def synthesizedDescription (info : Info) : String :=
  "Generated component for " ++ info.title ++ " " ++ info.version.getD ""

def profile (document : Document) (iconPath : String) : Profile :=
  let info := document.info
  let description := (info.description.toOption.bind nonEmpty).getD (synthesizedDescription info)
  ⟨info.title, description.trimBlanks, iconPath⟩

/-- Every action of a document, in the order of paths and verbs. -/
def buildActions (document : Document) : Logged (List Action) := do
  let (actions, _) ← (document.paths.getD []).foldlM
    (fun (actions, seen) (path, item) => do
      let (added, seen) ← pathActions path item seen
      return (actions ++ added, seen))
    ([], reservedActionKeys)
  return actions

/-- Every connection of a document; a key that is taken or empty gives way to another. -/
def buildConnections (document : Document) : Logged (List Connection) := do
  let (connections, _) ← document.securitySchemes.foldlM
    (fun (connections, seen) (name, node) => do
      let connection ← buildConnection name node
      let (key, seen) := Naming.uniqueIdentifier connection.key seen
      if key ≠ connection.key then
        Logged.note .debug .assembly ("Renamed connection " ++ connection.key ++ " to " ++ key)
      return (connections ++ [{ connection with key }], seen))
    ([], reservedConnectionKeys)
  return connections

def assemble (document : Document) (fallback : Option String) (iconPath : String) :
    Logged Blueprint := do
  let baseUrl ← Logged.ofExcept (baseUrl document fallback)
  let actions ← buildActions document
  let connections ← buildConnections document
  Logged.note .info .assembly
    ("Assembled " ++ document.info.title ++ ": " ++ toString actions.length ++ " actions, " ++
      toString connections.length ++ " connections")
  return { baseUrl, profile := profile document iconPath, actions, connections }

end ApiCompiler.Derivation
