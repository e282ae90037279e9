import ApiCompiler.Settings.Job
import ApiCompiler.Settings.Variables
import ApiCompiler.World.Basic

/-!
Settings: the jobs of a run. They are listed in a file or, if the file lists none, in an environment
variable.
-/

namespace ApiCompiler

structure Settings where
  jobs : List Job
  deriving DecidableEq

inductive SettingsFault
  | issues (list : List Issue)
  /-- The variable that may list the jobs does not hold JSON. -/
  | jobsVariable
  /-- A member's name is not a text. -/
  | memberName
  deriving DecidableEq

namespace Settings

def plain (settings : Settings) : Value :=
  .record [("documents", .list (settings.jobs.map Job.plain))]

def jobsMember : String := "documents"

/-- The variable whose JSON value lists the jobs where no file does. -/
def jobsVariable : String := "SPECTRALGEN_DOCUMENTS"

private def sameLetters (a b : String) : Bool :=
  a.toList.map Char.toLower = b.toList.map Char.toLower

/-- The jobs that the environment lists, in a variable of any letter case; null lists none. -/
def jobsFromEnvironment (environment : Environment) : Except SettingsFault (Option Value) :=
  match environment.reverse.find? fun (name, _) => sameLetters name jobsVariable with
  | none => .ok none
  | some (_, text) =>
      match Json.read text with
      | .ok value => .ok (if value.isNull then none else some value)
      | .error _ => .error .jobsVariable

private def isJobsName (name : Scalar) : Bool :=
  match name with
  | .text s => sameLetters s jobsMember
  | _ => false

/-- The name under which members list the jobs: as it is, or else in another letter case. -/
private def jobsName? (members : Members Value) : Option Scalar :=
  if (members.find? jobsMember).isSome then some (.text jobsMember)
  else (members.map Prod.fst).find? isJobsName

/-- The members with the jobs under their proper name, or those that are listed elsewhere. -/
private def withJobs (elsewhere : Option Value) (members : Members Value) : Members Value :=
  match jobsName? members, elsewhere with
  | some name, _ =>
      members.map fun (other, value) => (if other = name then .text jobsMember else other, value)
  | none, some jobs => (.text jobsMember, jobs) :: members
  | none, none => members

private def checkMembers (members : Members Value) : Check Settings :=
  (fun jobs () => Settings.mk jobs) <$> members.required [jobsMember] (Shape.list Job.check) <*>
    members.noExtras [[jobsMember]]

private def hasTextName : Scalar × Value → Bool
  | (.text _, _) => true
  | _ => false

def ofValue (environment : Environment) (value : Value) : Except SettingsFault Settings :=
  match value with
  | .object members =>
      if !members.all hasTextName then .error .memberName
      else do
        let elsewhere ← jobsFromEnvironment environment
        (checkMembers (withJobs elsewhere members)).toExcept.mapError .issues
  | _ => .error (.issues [⟨[], .record "GeneratorConfig"⟩])

def ofJob (environment : Environment) (job : Job) : Except SettingsFault Settings := do
  let _ ← jobsFromEnvironment environment
  return ⟨[job]⟩

end Settings

end ApiCompiler
