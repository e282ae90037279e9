import ApiCompiler.Component.Input

/-!
Connections of a component: the ways its users prove who they are.
-/

namespace ApiCompiler.Component

inductive OAuthGrant
  | authorizationCode
  | clientCredentials
  deriving DecidableEq

namespace OAuthGrant

def name : OAuthGrant → String
  | .authorizationCode => "AuthorizationCode"
  | .clientCredentials => "ClientCredentials"

def check (v : Value) : Check OAuthGrant :=
  match [authorizationCode, clientCredentials].find? fun grant => v.text? = some grant.name with
  | some grant => .ok grant
  | none => .fail .choice

end OAuthGrant

structure Connection where
  key : String
  label : String
  inputs : List (String × Credential)
  priority : Nat
  comments : Option String := none
  grant : Option OAuthGrant := none
  deriving DecidableEq

namespace Connection

def check : Value → Check Connection :=
  Shape.record "Connection" fun m =>
    (fun key label inputs priority comments grant () =>
      Connection.mk key label inputs priority (Member.toOption comments)
        (Member.toOption grant)) <$>
      m.required ["key"] Shape.text <*> m.required ["label"] Shape.text <*>
      m.required ["inputs"] (Shape.dictionary Credential.check) <*>
      m.required ["order_priority"] Shape.natural <*>
      m.nullable ["comments"] Shape.text <*> m.nullable ["oauth2_type"] OAuthGrant.check <*>
      m.noExtras [["key"], ["label"], ["inputs"], ["order_priority"], ["comments"],
        ["oauth2_type"]]

def plain (c : Connection) : Value :=
  .record ([("key", .text c.key), ("label", .text c.label),
      ("inputs", plainPairs Credential.plain c.inputs), ("order_priority", .int c.priority)] ++
    set "comments" .text c.comments ++ set "oauth2_type" (fun grant => .text grant.name) c.grant)

end Connection

end ApiCompiler.Component
