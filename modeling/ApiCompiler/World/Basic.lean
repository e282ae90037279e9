import ApiCompiler.World.Failure
import ApiCompiler.Yaml.Reader

/-!
Everything outside the program that a run can see and change: the disk, the web, the environment,
the log, and the means by which documents are got and read.
-/

namespace ApiCompiler

/--
What lies between the program and its documents: what a file system refuses to tell of a path or to
read, whoever asks; how an address is asked for its answer; and how YAML is read.
-/
structure Access where
  presence : FilePath → Option Errno := fun _ => none
  reading : FilePath → Option Errno := fun _ => none
  fetch : Web → Bool → String → Except WebFault WebAnswer := Web.fetch
  yaml : String → Except Yaml.Fault Value := Yaml.read

structure World where
  disk : Disk := {}
  web : Web := []
  environment : List (String × String) := []
  /-- A name that nothing else has, for directories that are gone at the end of a run. -/
  token : String := ""
  log : Log := #[]
  access : Access := {}

namespace World

/-- What is missing, or below a file, is not there; any other refusal leaves the question open. -/
def presence (world : World) (path : FilePath) : Except DiskFault Bool :=
  match world.access.presence path with
  | none => world.disk.presence path
  | some .missing | some .notDirectory => .ok false
  | some errno => .error { errno, path }

def read (world : World) (path : FilePath) : Except DiskFault ByteArray :=
  match world.access.reading path with
  | none => world.disk.read path
  | some errno => .error { errno, path }

end World

abbrev Run (α : Type) := ExceptT Problem (StateM World) α

namespace Run

def ofLogged {α : Type} (computation : Logged α) : Run α :=
  ExceptT.mk fun world =>
    let (result, log) := computation.run world.log
    (result, { world with log })

def ofExcept {α : Type} (result : Except Problem α) : Run α :=
  ExceptT.mk (pure result)

def note (level : Level) (topic : Topic) (message : String) : Run Unit :=
  ofLogged (Logged.note level topic message)

end Run

end ApiCompiler
