import ApiCompiler.Component.Connection
import ApiCompiler.Derivation.Inputs
import ApiCompiler.Openapi.Security
import ApiCompiler.Text.Sentence

/-!
Connections from security schemes.
-/

namespace ApiCompiler.Derivation

open Openapi Component

/-- Connections are offered by ascending priority. -/
def oauthPriority : Nat := 0

def apiKeyPriority : Nat := 50

def basicPriority : Nat := 1000

private def secret (label : String) : Credential :=
  { label, type := "password", required := some true }

private def comments (scheme : SecurityScheme) : Option String :=
  scheme.description.toOption.bind String.description?

/-- A connection by an API key, or by a bearer token if the scheme is no key scheme. -/
def apiKeyConnection (key : String) (scheme : SecurityScheme) : Connection :=
  let label :=
    if scheme.type = "apiKey" then (orElse (scheme.name.toOption.getD "") key).headerCase
    else "Token"
  { key := Naming.cleanIdentifier key
    label := key.startCase
    comments := comments scheme
    priority := apiKeyPriority
    inputs := [("apiKey", secret label)] }

def basicConnection (key : String) (scheme : SecurityScheme) : Connection :=
  { key := Naming.cleanIdentifier key
    label := key.startCase
    comments := comments scheme
    priority := basicPriority
    inputs :=
      [("username", { label := "Username", type := "string", required := some true }),
        ("password", secret "Password")] }

/-- An address that a flow declares is filled in and hidden. -/
private def address (label : String) (url : Member String) : Credential :=
  let url := url.toOption.filter fun text => !text.isEmpty
  { label, type := "string", required := some true, shown := some url.isNone, default := url,
    comments := some label }

/-- A connection by authorization code; without scopes their input is hidden. -/
def oauthConnection (key : String) (flow : OAuthFlow) : Connection :=
  let usesScopes := !(flow.scopes.getD []).isEmpty
  { key := Naming.cleanIdentifier key
    label := "OAuth 2.0"
    grant := some .authorizationCode
    priority := oauthPriority
    inputs :=
      [("authorizeUrl", address "Authorization URL" flow.authorizationUrl),
        ("tokenUrl", address "Token URL" flow.tokenUrl),
        ("scopes",
          { label := "Scopes", type := "string", required := some true, shown := some usesScopes,
            default := if usesScopes then none else some "",
            comments := some "Space-delimited scopes" }),
        ("clientId",
          { label := "Client ID", type := "string", required := some true, shown := some true,
            comments := some "Client identifier" }),
        ("clientSecret",
          { label := "Client Secret", type := "password", required := some true,
            shown := some true, comments := some "Client secret" })] }

def connectionOf (key : String) (scheme : SecurityScheme) : Except Problem Connection :=
  let httpScheme := (scheme.scheme.toOption.getD "").toLower
  if scheme.type = "apiKey" || (scheme.type = "http" && httpScheme = "bearer") then
    .ok (apiKeyConnection key scheme)
  else if scheme.type = "http" && httpScheme = "basic" then .ok (basicConnection key scheme)
  else if scheme.type = "oauth2" then
    match scheme.flows.toOption.bind fun flows => flows.authorizationCode.toOption with
    | some flow => .ok (oauthConnection key flow)
    | none =>
        .error (.declared (.unsupported ("OAuth 2.0 flows of security scheme '" ++ key ++ "'")
          (some "Only the authorizationCode flow is supported")))
  else
    let construct :=
      if scheme.type = "http" then "http " ++ scheme.scheme.toOption.getD "None" else scheme.type
    .error (.declared (.unsupported
      ("Security scheme type '" ++ construct ++ "' of '" ++ key ++ "'")
      (some "Supported schemes are apiKey, http basic, http bearer and oauth2")))

def buildConnection (key : String) (node : Node SecurityScheme) : Logged Connection := do
  let scheme ← Logged.ofExcept (resolved node ("security scheme '" ++ key ++ "'"))
  let connection ← Logged.ofExcept (connectionOf key scheme)
  Logged.note .debug .connections
    ("Built connection " ++ connection.key ++ " for security scheme " ++ key)
  return connection

end ApiCompiler.Derivation
