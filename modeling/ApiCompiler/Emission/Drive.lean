import ApiCompiler.World.Disk.Step

/-!
A disk in use. A disk may refuse a step for reasons of its own, such as a lack of room or of
permission, so a drive says which of the steps to come, if any, it is going to refuse.
-/

namespace ApiCompiler

def DiskStep.path : DiskStep → FilePath
  | .look path => path
  | .makeDirectories path => path
  | .write path _ => path
  | .move source _ => source
  | .remove path => path
  | .removeDirectory path => path

def DiskStep.target : DiskStep → Option FilePath
  | .move _ target => some target
  | _ => none

/-- A refusal that comes after a number of steps, before the step or somewhere in its midst. -/
structure Refusal where
  after : Nat
  errno : Errno
  extent : Option Nat := none
  deriving DecidableEq

structure Drive where
  disk : Disk
  refusal : Option Refusal := none

namespace Drive

/-- Takes a step, unless this is the one to be refused. -/
def attempt (drive : Drive) (step : DiskStep) : Except DiskFault Unit × Drive :=
  match drive.refusal with
  | none =>
      let (result, disk) := drive.disk.apply step
      (result, ⟨disk, none⟩)
  | some ⟨0, errno, extent⟩ =>
      let disk := extent.elim drive.disk fun extent => drive.disk.applyPartly extent step
      (.error { errno, path := step.path, target := step.target }, ⟨disk, none⟩)
  | some ⟨after + 1, errno, extent⟩ =>
      let (result, disk) := drive.disk.apply step
      (result, ⟨disk, some ⟨after, errno, extent⟩⟩)

end Drive

end ApiCompiler
