import ApiCompiler.Modules.Manifest
import ApiCompiler.Naming.Identifier

/-!
Jobs: a description to make a component from, and what is said about that component.
-/

namespace ApiCompiler

structure Job where
  source : String
  output : String := "."
  name : Option String := none
  key : Option String := none
  /-- The address to use if the description gives none. -/
  baseUrl : Option String := none
  iconPath : String := Component.Profile.standardIcon
  category : String := Modules.standardCategory
  followsExternal : Bool := true
  deriving DecidableEq

namespace Job

private def nonEmptyText (text : Option String) : Option String :=
  text.filter fun text => !text.isEmpty

/-- The key of the component for a description's title: given, or from the name or the title. -/
def componentKey (job : Job) (title : String) : String :=
  match nonEmptyText job.key with
  | some key => key
  | none =>
      let key := Naming.cleanIdentifier ((nonEmptyText job.name).getD title)
      if key.isEmpty then "component" else key

/-- Reads a job; members that say nothing about it are passed over. -/
def check : Value → Check Job :=
  Shape.record "DocumentConfig" fun m =>
    (fun source output name key baseUrl iconPath category followsExternal =>
      let standard : Job := { source }
      { source
        output := Option.getD output standard.output
        name := Member.toOption name
        key := Member.toOption key
        baseUrl := Member.toOption baseUrl
        iconPath := Option.getD iconPath standard.iconPath
        category := Option.getD category standard.category
        followsExternal := Option.getD followsExternal standard.followsExternal }) <$>
      m.required ["source"] Shape.text <*> m.optional ["output"] Shape.text <*>
      m.nullable ["name"] Shape.text <*> m.nullable ["key"] Shape.text <*>
      m.nullable ["base_url"] Shape.text <*> m.optional ["icon_path"] Shape.text <*>
      m.optional ["category"] Shape.text <*> m.optional ["resolve_external_refs"] Shape.truth

def plain (job : Job) : Value :=
  .record
    [("source", .text job.source), ("output", .text job.output),
      ("name", .ofOption .text job.name), ("key", .ofOption .text job.key),
      ("base_url", .ofOption .text job.baseUrl), ("icon_path", .text job.iconPath),
      ("category", .text job.category), ("resolve_external_refs", .bool job.followsExternal)]

end Job

end ApiCompiler
