import ApiCompiler.Derivation.Blueprint
import ApiCompiler.Emission.Run
import ApiCompiler.Loading.Loader
import ApiCompiler.Modules.Artifacts
import ApiCompiler.Settings.Job

/-!
Doing a job: its description is read, a blueprint is derived from it, and the component's texts are
rendered. Nothing is written before all texts are there.
-/

namespace ApiCompiler.Job

open Component Modules

def loader (job : Job) : Loader :=
  { followsExternal := job.followsExternal }

def read (job : Job) : Run (String × Blueprint) := do
  let document ← job.loader.run (Loading.load job.source)
  let blueprint ← Run.ofLogged (ApiCompiler.Derivation.assemble document job.baseUrl job.iconPath)
  return (job.componentKey document.info.title, blueprint)

def artifacts (job : Job) : Run (String × Artifacts) := do
  let (key, blueprint) ← job.read
  return (key, ← Run.ofLogged (render key blueprint job.category))

/-- The component's key and texts, as work that is told about. -/
def produce (job : Job) : Run (String × Artifacts) := do
  Run.note .info .generation ("Generating component from " ++ job.source)
  job.artifacts

def generate (job : Job) : Run (List String) := do
  let (_, texts) ← job.produce
  let (written, _) ← FileEmitter.run { output := .ofText job.output } texts
  return written

end ApiCompiler.Job
