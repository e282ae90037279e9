import ApiCompiler.Command.Execution

/-!
The program: it takes the files below the working directory and the variables that they refer to,
does what its command line asks for, and puts back the files that changed. It fetches nothing from
the web.
-/

open ApiCompiler

/-- The names below a directory with what they hold, the directory's own names first. -/
partial def entriesBelow (path : String) (place : Place) : IO (List (Place × Entry)) := do
  let directory ← IO.FS.realPath path
  let mut entries : List (Place × Entry) := []
  for child in ← directory.readDir do
    let below := path ++ "/" ++ child.fileName
    let inside := place ++ [child.fileName]
    if ← child.path.isDir then
      entries := entries ++ (inside, Entry.directory) :: (← entriesBelow below inside)
    else
      entries := entries ++ [(inside, Entry.file (← IO.FS.readBinFile below))]
  return entries

def readDisk : IO Disk := do
  let path := FilePath.ofText (toString (← IO.currentDir))
  let empty : Disk := { workingDirectory := path.segments }
  let disk := empty.plant path.segments .directory
  return { disk with entries := disk.entries ++ (← entriesBelow "." path.segments) }

def referredNames (bytes : ByteArray) : List String :=
  (Variables.pieces ((String.fromUTF8? bytes).getD "").toList).filterMap fun piece =>
    match piece with
    | .reference name => some name
    | .plain _ => none

def readEnvironment (disk : Disk) : IO Environment := do
  let names := disk.entries.flatMap fun (_, entry) =>
    match entry with
    | .file bytes => referredNames bytes
    | .directory => []
  let names := (Settings.jobsVariable :: names).eraseDups
  let values ← names.mapM fun name => do
    return (name, ← IO.getEnv name)
  return values.filterMap fun (name, value) => value.map fun value => (name, value)

/-- Takes away what is gone after a run, or of another kind; what was below it goes first. -/
def clearDisk (before after : Disk) : IO Unit := do
  for (place, entry) in before.entries.reverse do
    let path := (FilePath.absolute place).text
    match entry, after.entry? place with
    | .directory, some .directory => pure ()
    | .directory, _ => IO.FS.removeDirAll path
    | .file _, some (.file _) => pure ()
    | .file _, _ => IO.FS.removeFile path

def writeDisk (before after : Disk) : IO Unit := do
  clearDisk before after
  for (place, entry) in after.entries do
    if before.entry? place ≠ some entry then
      let path := FilePath.absolute place
      match entry with
      | .directory => IO.FS.createDirAll path.text
      | .file bytes =>
          IO.FS.createDirAll path.parent.text
          IO.FS.writeBinFile path.text bytes

def main (words : List String) : IO UInt32 := do
  let disk ← readDisk
  let world : World :=
    { disk, environment := ← readEnvironment disk, token := toString (← IO.monoNanosNow) }
  let (result, world) := Command.execute words world
  writeDisk disk world.disk
  match result with
  | .error fault =>
      IO.eprintln fault.message
      return 2
  | .ok outcome =>
      outcome.lines.forM IO.println
      if let some breakdown := outcome.breakdown then IO.eprintln breakdown.message
      return outcome.exitCode.toUInt32
