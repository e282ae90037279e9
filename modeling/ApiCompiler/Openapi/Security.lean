import ApiCompiler.Openapi.Expansion

/-!
Security schemes: how callers of an interface prove who they are.
-/

namespace ApiCompiler.Openapi

structure OAuthFlow where
  authorizationUrl : Member String
  tokenUrl : Member String
  refreshUrl : Member String
  scopes : Option (List (String × String))
  extras : List (String × Value)

namespace OAuthFlow

def check : Expansion → Check OAuthFlow :=
  Shape.record "OAuthFlow" fun m =>
    OAuthFlow.mk <$> m.nullable ["authorizationUrl"] Shape.text <*>
      m.nullable ["tokenUrl"] Shape.text <*>
      m.nullable ["refreshUrl"] Shape.text <*>
      m.optional ["scopes"] (Shape.dictionary Shape.text) <*>
      m.extras [["authorizationUrl"], ["tokenUrl"], ["refreshUrl"], ["scopes"]] Expansion.plain

def dump (flow : OAuthFlow) : Value :=
  .record (flow.authorizationUrl.written "authorizationUrl" .text ++
    flow.tokenUrl.written "tokenUrl" .text ++ flow.refreshUrl.written "refreshUrl" .text ++
    writtenOption "scopes"
      (fun scopes => .record (scopes.map fun (name, text) => (name, .text text))) flow.scopes ++
    flow.extras)

end OAuthFlow

structure OAuthFlows where
  implicit : Member OAuthFlow
  password : Member OAuthFlow
  clientCredentials : Member OAuthFlow
  authorizationCode : Member OAuthFlow
  extras : List (String × Value)

namespace OAuthFlows

def check : Expansion → Check OAuthFlows :=
  Shape.record "OAuthFlows" fun m =>
    OAuthFlows.mk <$> m.nullable ["implicit"] OAuthFlow.check <*>
      m.nullable ["password"] OAuthFlow.check <*>
      m.nullable ["clientCredentials"] OAuthFlow.check <*>
      m.nullable ["authorizationCode"] OAuthFlow.check <*>
      m.extras [["implicit"], ["password"], ["clientCredentials"], ["authorizationCode"]]
        Expansion.plain

def dump (flows : OAuthFlows) : Value :=
  .record (flows.implicit.written "implicit" OAuthFlow.dump ++
    flows.password.written "password" OAuthFlow.dump ++
    flows.clientCredentials.written "clientCredentials" OAuthFlow.dump ++
    flows.authorizationCode.written "authorizationCode" OAuthFlow.dump ++ flows.extras)

end OAuthFlows

structure SecurityScheme where
  type : String
  description : Member String
  name : Member String
  place : Member String
  scheme : Member String
  bearerFormat : Member String
  flows : Member OAuthFlows
  openIdConnectUrl : Member String
  extras : List (String × Value)

namespace SecurityScheme

def check : Expansion → Check SecurityScheme :=
  Shape.record "SecurityScheme" fun m =>
    SecurityScheme.mk <$> m.required ["type"] Shape.text <*>
      m.nullable ["description"] Shape.text <*>
      m.nullable ["name"] Shape.text <*>
      m.nullable ["in", "in_"] Shape.text <*>
      m.nullable ["scheme"] Shape.text <*>
      m.nullable ["bearerFormat"] Shape.text <*>
      m.nullable ["flows"] OAuthFlows.check <*>
      m.nullable ["openIdConnectUrl"] Shape.text <*>
      m.extras [["type"], ["description"], ["name"], ["in", "in_"], ["scheme"], ["bearerFormat"],
        ["flows"], ["openIdConnectUrl"]] Expansion.plain

def dump (s : SecurityScheme) : Value :=
  .record (("type", .text s.type) :: s.description.written "description" .text ++
    s.name.written "name" .text ++ s.place.written "in" .text ++
    s.scheme.written "scheme" .text ++ s.bearerFormat.written "bearerFormat" .text ++
    s.flows.written "flows" OAuthFlows.dump ++
    s.openIdConnectUrl.written "openIdConnectUrl" .text ++ s.extras)

end SecurityScheme

structure Components where
  securitySchemes : Option (List (String × Node SecurityScheme))
  extras : List (String × Value)

namespace Components

def check : Expansion → Check Components :=
  Shape.record "Components" fun m =>
    Components.mk <$>
      m.optional ["securitySchemes"] (Shape.dictionary (Node.check SecurityScheme.check)) <*>
      m.extras [["securitySchemes"]] Expansion.plain

def dump (c : Components) : Value :=
  .record (writtenOption "securitySchemes"
    (fun schemes => .record (schemes.map fun (name, node) =>
      (name, node.dump SecurityScheme.dump))) c.securitySchemes ++ c.extras)

end Components

end ApiCompiler.Openapi
