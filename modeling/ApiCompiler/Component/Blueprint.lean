import ApiCompiler.Component.Action
import ApiCompiler.Component.Connection

/-!
Blueprints: everything that is known of a component before its sources are written.
-/

namespace ApiCompiler.Component

structure Profile where
  label : String
  description : String
  iconPath : String
  deriving DecidableEq

namespace Profile

def standardIcon : String := "icon.png"

private def checkDisplay : Value → Check Profile :=
  Shape.record "ComponentDisplay" fun m =>
    (fun label description iconPath () =>
      Profile.mk label description (Option.getD iconPath standardIcon)) <$>
      m.required ["label"] Shape.text <*> m.required ["description"] Shape.text <*>
      m.optional ["icon_path"] Shape.text <*>
      m.noExtras [["label"], ["description"], ["icon_path"]]

def plainDisplay (p : Profile) : Value :=
  .record [("label", .text p.label), ("description", .text p.description),
    ("icon_path", .text p.iconPath)]

def check : Value → Check Profile :=
  Shape.record "Component" fun m =>
    (fun profile () => profile) <$> m.required ["display"] checkDisplay <*>
      m.noExtras [["display"]]

def plain (p : Profile) : Value :=
  .record [("display", p.plainDisplay)]

end Profile

structure Blueprint where
  baseUrl : String
  profile : Profile
  actions : List Action := []
  connections : List Connection := []
  deriving DecidableEq

namespace Blueprint

def check : Value → Check Blueprint :=
  Shape.record "Result" fun m =>
    (fun baseUrl profile actions connections () =>
      Blueprint.mk baseUrl profile (Option.getD actions []) (Option.getD connections [])) <$>
      m.required ["base_url"] Shape.text <*> m.required ["component"] Profile.check <*>
      m.optional ["actions"] (Shape.tuple Action.check) <*>
      m.optional ["connections"] (Shape.tuple Connection.check) <*>
      m.noExtras [["base_url"], ["component"], ["actions"], ["connections"]]

def plain (b : Blueprint) : Value :=
  .record [("base_url", .text b.baseUrl), ("component", b.profile.plain),
    ("actions", .list (b.actions.map Action.plain)),
    ("connections", .list (b.connections.map Connection.plain))]

/-- The plain form of a part given by the name of its kind, once its value is checked. -/
def plainPart? (kind : String) (v : Value) : Option (Check Value) :=
  match kind with
  | "InputChoice" => some (Choice.plain <$> Choice.check v)
  | "CleanFunction" => some (Conversion.plain <$> Conversion.check v)
  | "Input" => some (Input.plain <$> Input.check v)
  | "ConnectionInput" => some (Credential.plain <$> Credential.check v)
  | "KeyMapping" => some (Binding.plain <$> Binding.check v)
  | "PerformPlan" => some (RequestPlan.plain <$> RequestPlan.check v)
  | "ActionDisplay" => some (Display.plain <$> Display.check v)
  | "Action" => some (Action.plain <$> Action.check v)
  | "Connection" => some (Connection.plain <$> Connection.check v)
  | "ComponentDisplay" => some (Profile.plainDisplay <$> Profile.checkDisplay v)
  | "Component" => some (Profile.plain <$> Profile.check v)
  | "Result" => some (plain <$> check v)
  | _ => none

end Blueprint

end ApiCompiler.Component
