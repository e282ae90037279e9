import ApiCompiler.Command.Arguments
import ApiCompiler.Generation

/-!
Doing what a command line asks for. Jobs are done one after the other until one fails; what was
printed and written before stays.
-/

namespace ApiCompiler.Command

def programName : String := "spectralgen"

def version : String := "0.1.0"

/-- What came of a command: its exit code, the lines printed, and what it did not handle. -/
structure Outcome where
  exitCode : Nat
  lines : List String := []
  breakdown : Option Breakdown := none
  deriving DecidableEq

structure Session where
  world : World
  lines : List String := []

abbrev Executing (α : Type) := ExceptT Problem (StateM Session) α

def ofRun {α : Type} (computation : Run α) : Executing α :=
  ExceptT.mk fun session =>
    let (result, world) := (ExceptT.run computation).run session.world
    (result, { session with world })

private def tabSpaces (column : Nat) : List Char :=
  List.replicate (8 - column % 8) ' '

private def expandTabs (column : Nat) : List Char → List Char
  | [] => []
  | '\t' :: rest => tabSpaces column ++ expandTabs (column + (8 - column % 8)) rest
  | c :: rest => c :: expandTabs (column + 1) rest

private def movesCursor (c : Char) : Bool :=
  c = '\x07' || c = '\x08' || c = '\x0b' || c = '\x0c' || c = '\x0d'

def consoleLines (text : String) : List String :=
  (Text.splitAt '\n' (text.toList.filter fun c => !movesCursor c)).map fun line =>
    String.ofList (expandTabs 0 line)

def shown (markup : String) : Except Problem (List String) :=
  match Text.Markup.render markup with
  | .ok text => .ok (consoleLines text)
  | .error fault => .error (.undeclared (.markup fault))

def print (markup : String) : Executing Unit := do
  match shown markup with
  | .ok lines => modify fun session => { session with lines := session.lines ++ lines }
  | .error problem => throw problem

/-- Shows how far the work has come, in a line that does not stay. -/
def progress (description : String) : Executing Unit := do
  match shown ("[progress.description]" ++ description) with
  | .ok _ => return
  | .error problem => throw problem

def executeJob (job : Job) : Executing Unit := do
  progress ("Generating component for " ++ job.source ++ " in " ++ job.output ++ "...")
  let written ← ofRun job.generate
  progress ("Generation completed for " ++ job.source ++ "!")
  print ("[green]Successfully generated component from " ++ job.source ++ "[/green]")
  print "[dim]Generated files:[/dim]"
  written.forM fun path => print ("  - " ++ path)

def settingsOf (selection : Settings.Selection) : Run Settings := do
  let world ← get
  Run.ofExcept (Settings.select world.disk world.environment selection)

def executeRequest : Request → Executing Unit
  | .generate selection => do
      let settings ← ofRun (settingsOf selection)
      settings.jobs.forM executeJob
  | .version => print (programName ++ " version: " ++ version)
  | .help => do
      print ("Usage: " ++ programName ++ " generate|version OPTIONS")
      generateForms.forM fun form => print ("  " ++ form.longName)

private def failureLines (failure : Failure) : Except Problem (List String) :=
  shown ("[red]Error:[/red] " ++ Text.Markup.escape failure.message)

private def outcomeOf (lines : List String) : Except Problem Unit → Outcome
  | .ok _ => { exitCode := 0, lines }
  | .error (.declared failure) =>
      match failureLines failure with
      | .ok more => { exitCode := 1, lines := lines ++ more }
      | .error _ => { exitCode := 1, lines }
  | .error (.undeclared breakdown) => { exitCode := 1, lines, breakdown := some breakdown }

/-- Does what a command line asks for, or nothing if it asks for nothing that is known. -/
def execute (words : List String) (world : World) : Except UsageFault Outcome × World :=
  match readRequest words with
  | .error fault => (.error fault, world)
  | .ok request =>
      let (result, session) := (ExceptT.run (executeRequest request)).run { world }
      (.ok (outcomeOf session.lines result), session.world)

end ApiCompiler.Command
