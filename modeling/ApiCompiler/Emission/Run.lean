import ApiCompiler.Emission.FileEmitter
import ApiCompiler.Tree.Named
import ApiCompiler.World.Basic

/-!
Emission in the world: the staging directory is named by the world's token.
-/

namespace ApiCompiler.FileEmitter

def stagingName (token : String) : String :=
  ".spectralgen-" ++ token

def run (emitter : FileEmitter) (texts : List (String × String)) :
    Run (List String × FileEmitter) :=
  ExceptT.mk fun world =>
    let (report, emitter) :=
      emitter.emit { disk := world.disk } (stagingName world.token) (Named.ofList texts)
    let world := { world with disk := report.drive.disk, log := world.log ++ report.log }
    match report.result with
    | .ok written => (.ok (written, emitter), world)
    | .error failure => (.error (.declared failure), world)

end ApiCompiler.FileEmitter
