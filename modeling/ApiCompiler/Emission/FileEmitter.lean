import ApiCompiler.Emission.Drive
import ApiCompiler.World.Failure

/-!
Writing texts below a directory, all of them or none. The texts are first written to a staging
directory and then moved into place; what they replace is kept beside them until every move is done,
and goes back where it was if one is refused.
-/

namespace ApiCompiler

/-- A file moved into place, and where the one it replaced was put. -/
structure Placement where
  destination : FilePath
  previous : Option FilePath
  deriving DecidableEq

namespace Emission

/-- How far an emission has come: the drive, and the files moved into place. -/
structure Progress where
  drive : Drive
  placed : List Placement := []

abbrev Emitting (α : Type) := ExceptT DiskFault (StateM Progress) α

def take (step : DiskStep) : Emitting Unit :=
  ExceptT.mk fun progress =>
    let (result, drive) := progress.drive.attempt step
    (result, { progress with drive })

def holds (path : FilePath) : Emitting Bool := do
  take (.look path)
  return (← get).drive.disk.holds path

def isDirectory (path : FilePath) : Emitting Bool := do
  take (.look path)
  return (← get).drive.disk.isDirectory path

def list (path : FilePath) : Emitting (List String) := do
  take (.look path)
  ExceptT.mk fun progress => (progress.drive.disk.list path, progress)

/-- Where the new files of an emission are written. -/
def nextFolder (staging : FilePath) : FilePath :=
  staging.join (.ofText "next")

/-- Where an emission keeps what it replaces. -/
def previousFolder (staging : FilePath) : FilePath :=
  staging.join (.ofText "previous")

def stage (staging : FilePath) (name text : String) : Emitting Unit := do
  let staged := (nextFolder staging).join (.ofText name)
  take (.makeDirectories staged.parent)
  take (.write staged text)

def setAside (staging : FilePath) (name : String) (destination : FilePath) :
    Emitting (Option FilePath) := do
  if ← holds destination then
    let previous := (previousFolder staging).join (.ofText name)
    take (.makeDirectories previous.parent)
    take (.move destination previous)
    return some previous
  else return none

def place (output staging : FilePath) (name : String) : Emitting Unit := do
  let destination := output.join (.ofText name)
  take (.makeDirectories destination.parent)
  let previous ← setAside staging name destination
  modify fun progress =>
    { progress with placed := progress.placed ++ [⟨destination, previous⟩] }
  take (.move ((nextFolder staging).join (.ofText name)) destination)

/-- Stages every text, then moves every file into place. -/
def writeAll (output staging : FilePath) (texts : List (String × String)) : Emitting Unit := do
  texts.forM fun (name, text) => stage staging name text
  texts.forM fun (name, _) => place output staging name

def clear (path : FilePath) : Emitting Unit := do
  if ← holds path then take (.remove path)

def restore (placement : Placement) : Emitting Unit := do
  clear placement.destination
  match placement.previous with
  | none => return
  | some previous => take (.move previous placement.destination)

/-- Restores one more placed file; a refusal is logged and changes nothing for the others. -/
def restoreNext (state : Drive × Log) (placement : Placement) : Drive × Log :=
  match (restore placement).run ⟨state.1, []⟩ with
  | (.ok _, progress) => (progress.drive, state.2)
  | (.error fault, progress) =>
      (progress.drive, state.2.push ⟨.warning, .emission,
        "Failed to restore " ++ placement.destination.text ++ ": " ++ fault.message⟩)

def rollBack (progress : Progress) : Drive × Log :=
  progress.placed.reverse.foldl restoreNext (progress.drive, #[])

/-- Removes what is in a directory, given how to remove a directory in it. -/
def removeChild (removeTree : FilePath → Emitting Unit) (child : FilePath) : Emitting Unit := do
  if ← isDirectory child then removeTree child else take (.remove child)

/-- Removes a directory and all that is below it, up to a depth that no directory reaches. -/
def removeTree : (depth : Nat) → FilePath → Emitting Unit
  | 0, path => throw { errno := .missing, path }
  | depth + 1, path => do
      if ← holds path then
        (← list path).forM fun name => removeChild (removeTree depth) (path.child name)
        take (.removeDirectory path)

/-- Removes the staging directory; a refusal is logged. -/
def removeStaging (drive : Drive) (staging : FilePath) : Drive × Log :=
  match (removeTree (drive.disk.height + 1) staging).run ⟨drive, []⟩ with
  | (.ok _, progress) => (progress.drive, #[])
  | (.error fault, progress) =>
      (progress.drive, #[⟨.warning, .emission,
        "Failed to remove staging directory " ++ staging.text ++ ": " ++ fault.message⟩])

/-- What came of an emission: the paths written, the drive afterwards, and what there is to tell. -/
structure Report where
  result : Except Failure (List String)
  drive : Drive
  log : Log

/-- How far writing the texts comes, and which refusal stops it. -/
def attempt (drive : Drive) (output : FilePath) (stagingName : String)
    (texts : List (String × String)) : Except DiskFault Unit × Progress :=
  (writeAll output (output.join (.ofText stagingName)) texts).run ⟨drive, []⟩

def emit (drive : Drive) (output : FilePath) (stagingName : String)
    (texts : List (String × String)) : Report :=
  let staging := output.join (.ofText stagingName)
  match attempt drive output stagingName texts with
  | (.error fault, progress) =>
      let (drive, unrestored) := rollBack progress
      let (drive, unremoved) := removeStaging drive staging
      ⟨.error (.emission output.text (some (.disk fault))), drive, unrestored ++ unremoved⟩
  | (.ok _, progress) =>
      let (drive, unremoved) := removeStaging progress.drive staging
      let written := progress.placed.map fun placement => placement.destination.text
      ⟨.ok written, drive,
        unremoved ++ (written.map fun path => ⟨.info, .emission, "Wrote " ++ path⟩).toArray⟩

end Emission

structure FileEmitter where
  output : FilePath
  written : List String := []
  deriving DecidableEq

namespace FileEmitter

/-- Writes texts; a failed emission adds nothing to what has been written. -/
def emit (emitter : FileEmitter) (drive : Drive) (stagingName : String)
    (texts : List (String × String)) : Emission.Report × FileEmitter :=
  let report := Emission.emit drive emitter.output stagingName texts
  match report.result with
  | .ok written => (report, { emitter with written := emitter.written ++ written })
  | .error _ => (report, emitter)

end FileEmitter

end ApiCompiler
