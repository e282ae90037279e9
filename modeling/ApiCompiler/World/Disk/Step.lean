import ApiCompiler.World.Disk

/-!
Steps that look at a disk or change it. Each either does all of its work or tells why it was refused.
Making directories may leave some of them behind when it is refused, and writing a file a part of it.
-/

namespace ApiCompiler

inductive DiskStep
  | look (path : FilePath)
  | makeDirectories (path : FilePath)
  | write (path : FilePath) (text : String)
  | move (source target : FilePath)
  | remove (path : FilePath)
  | removeDirectory (path : FilePath)

namespace Disk

/-- The disk with a new directory, whose parent has to be there. -/
def makeDirectory (disk : Disk) (path : FilePath) : Except DiskFault Disk :=
  match disk.locate path with
  | .error errno => .error { errno, path }
  | .ok place =>
      match disk.entry? place with
      | none => .ok (disk.put place .directory)
      | some _ => .error { errno := .occupied, path }

/-- A refusal to make a directory does not matter if it is there already. -/
def unlessDirectory (disk : Disk) (fault : DiskFault) : Except DiskFault Unit × Disk :=
  (if disk.isDirectory fault.path then .ok () else .error fault, disk)

/-- Makes a directory, and before it those of its parents that are missing. -/
def makeWithParents : (depth : Nat) → FilePath → Disk → Except DiskFault Unit × Disk
  | 0, path, disk => (.error { errno := .missing, path }, disk)
  | depth + 1, path, disk =>
      match disk.makeDirectory path with
      | .ok disk => (.ok (), disk)
      | .error fault =>
          if fault.errno ≠ .missing then disk.unlessDirectory fault
          else
            match makeWithParents depth path.parent disk with
            | (.error fault, disk) => (.error fault, disk)
            | (.ok _, disk) =>
                match disk.makeDirectory path with
                | .ok disk => (.ok (), disk)
                | .error fault =>
                    if fault.errno ≠ .missing then disk.unlessDirectory fault
                    else (.error fault, disk)

/-- Makes a directory with the parents it lacks; one that is there already is left as it is. -/
def makeDirectories (disk : Disk) (path : FilePath) : Except DiskFault Unit × Disk :=
  makeWithParents (path.segments.length + 1) path disk

def write (disk : Disk) (path : FilePath) (bytes : ByteArray) : Except DiskFault Disk :=
  match disk.locate path with
  | .error errno => .error { errno, path }
  | .ok place =>
      match disk.entry? place with
      | some .directory => .error { errno := .isDirectory, path }
      | _ => .ok (disk.put place (.file bytes))

/-- Whether what is at one place may take the place of what is at another one. -/
def moveRefusal (disk : Disk) (source target : Place) : Option Errno :=
  if source ≠ target && source.isPrefixOf target then some .invalid
  else if source ≠ target && target.isPrefixOf source then some .notEmpty
  else
    match disk.entry? source, disk.entry? target with
    | none, _ => some .missing
    | some .directory, some (.file _) => some .notDirectory
    | some (.file _), some .directory => some .isDirectory
    | some .directory, some .directory =>
        if source = target || (disk.below target).isEmpty then none else some .notEmpty
    | _, _ => none

/-- The disk with a file or directory moved, in place of a file or an empty directory. -/
def move (disk : Disk) (source target : FilePath) : Except DiskFault Disk :=
  let refuse (errno : Errno) : Except DiskFault Disk :=
    .error { errno, path := source, target := some target }
  match disk.locate source, disk.locate target with
  | .error errno, _ => refuse errno
  | .ok _, .error errno => refuse errno
  | .ok a, .ok b =>
      match disk.moveRefusal a b with
      | some errno => refuse errno
      | none => .ok (if a = b then disk else disk.transfer a b)

def remove (disk : Disk) (path : FilePath) : Except DiskFault Disk :=
  match disk.locate path with
  | .error errno => .error { errno, path }
  | .ok place =>
      match disk.entry? place with
      | none => .error { errno := .missing, path }
      | some .directory => .error { errno := .isDirectory, path }
      | some (.file _) => .ok (disk.erase place)

/-- The disk without a directory, which has to be empty. -/
def removeDirectory (disk : Disk) (path : FilePath) : Except DiskFault Disk :=
  match disk.locate path with
  | .error errno => .error { errno, path }
  | .ok place =>
      match disk.entry? place with
      | none => .error { errno := .missing, path }
      | some (.file _) => .error { errno := .notDirectory, path }
      | some .directory =>
          if (disk.below place).isEmpty then .ok (disk.erase place)
          else .error { errno := .notEmpty, path }

/-- A change of the disk, which stays as it is when the change is refused. -/
def changed (disk : Disk) : Except DiskFault Disk → Except DiskFault Unit × Disk
  | .ok disk => (.ok (), disk)
  | .error fault => (.error fault, disk)

def apply (disk : Disk) : DiskStep → Except DiskFault Unit × Disk
  | .look _ => (.ok (), disk)
  | .makeDirectories path => disk.makeDirectories path
  | .write path text => disk.changed (disk.write path text.toUTF8)
  | .move source target => disk.changed (disk.move source target)
  | .remove path => disk.changed (disk.remove path)
  | .removeDirectory path => disk.changed (disk.removeDirectory path)

/-- The disk after a step that was refused midway: some of the directories, or the first bytes. -/
def applyPartly (disk : Disk) (extent : Nat) : DiskStep → Disk
  | .makeDirectories path =>
      (disk.makeDirectories ⟨path.isAbsolute, path.segments.take extent⟩).2
  | .write path text => (disk.changed (disk.write path (text.toUTF8.extract 0 extent))).2
  | _ => disk

end Disk

end ApiCompiler
