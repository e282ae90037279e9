import ApiCompiler.Derivation.Inputs
import ApiCompiler.Modules.Client
import ApiCompiler.Modules.Manifest

/-!
All source files of a component.
-/

namespace ApiCompiler.Modules

open Component Script

abbrev Artifacts := Named String

def sourceFiles (key : String) (blueprint : Blueprint) (category : String) : List SourceFile :=
  connectionsModule blueprint.connections :: actionModules blueprint.actions ++
    [clientModule blueprint.baseUrl blueprint.connections,
      manifestModule key blueprint.profile category]

/-- The texts by path; of two files with one path the later gives the text, in the earlier's place. -/
def artifactsOf (files : List SourceFile) : Artifacts :=
  Named.ofList (files.map fun file => (file.path, file.render))

def noteActionModules (actions : List Action) : Logged Unit :=
  Logged.note .debug .actionModules
    ("Built " ++ toString (groupActions actions).length ++ " action groups for " ++
      toString actions.length ++ " actions")

def render (key : String) (blueprint : Blueprint) (category : String) : Logged Artifacts := do
  noteActionModules blueprint.actions
  return artifactsOf (sourceFiles key blueprint category)

end ApiCompiler.Modules
