import ApiCompiler.Location.FilePath
import ApiCompiler.Text.Quoted

/-!
File trees: regular files and directories by their names from the root, the walk along a path, and
what a file system says when it refuses a step.
-/

namespace ApiCompiler

/-- The names that lead from the root to a file or directory. -/
abbrev Place := List String

inductive Errno
  | missing
  | occupied
  | notDirectory
  | isDirectory
  | invalid
  | notEmpty
  | nameTooLong
  | denied
  | unreadable
  deriving DecidableEq

namespace Errno

def message : Errno → String
  | .missing => "[Errno 2] No such file or directory"
  | .occupied => "[Errno 17] File exists"
  | .notDirectory => "[Errno 20] Not a directory"
  | .isDirectory => "[Errno 21] Is a directory"
  | .invalid => "[Errno 22] Invalid argument"
  | .notEmpty => "[Errno 39] Directory not empty"
  | .nameTooLong => "[Errno 36] File name too long"
  | .denied => "[Errno 13] Permission denied"
  | .unreadable => "[Errno 5] Input/output error"

end Errno

/-- A refused step: the path it was about, and for a move the path it led to. -/
structure DiskFault where
  errno : Errno
  path : FilePath
  target : Option FilePath := none
  deriving DecidableEq

def DiskFault.message (fault : DiskFault) : String :=
  fault.errno.message ++ ": " ++ fault.path.text.shown ++
    match fault.target with
    | none => ""
    | some target => " -> " ++ target.text.shown

inductive Entry
  | directory
  | file (bytes : ByteArray)

instance : DecidableEq Entry
  | .directory, .directory => isTrue rfl
  | .directory, .file _ => isFalse nofun
  | .file _, .directory => isFalse nofun
  | .file a, .file b => decidable_of_iff (a.data = b.data) (by cases a; cases b; simp)

/-- The files and directories below the root, and the directory that relative paths start from. -/
structure Disk where
  entries : List (Place × Entry) := []
  workingDirectory : Place := []

namespace Disk

/-- What is at a place; the root is always a directory. -/
def entry? (disk : Disk) (place : Place) : Option Entry :=
  if place.isEmpty then some .directory else disk.entries.lookup place

/-- One step along a path, which only a directory can be left by. -/
def walk (disk : Disk) (place : Place) (name : String) : Except Errno Place :=
  match disk.entry? place with
  | none => .error .missing
  | some (.file _) => .error .notDirectory
  | some .directory => .ok (if name = ".." then place.dropLast else place ++ [name])

/-- Where a path starts from. -/
def start (disk : Disk) (path : FilePath) : Place :=
  if path.isAbsolute then [] else disk.workingDirectory

/-- The place that a path leads to, whether or not anything is there. -/
def locate (disk : Disk) (path : FilePath) : Except Errno Place :=
  path.segments.foldlM disk.walk (disk.start path)

def find? (disk : Disk) (path : FilePath) : Option Entry :=
  match disk.locate path with
  | .ok place => disk.entry? place
  | .error _ => none

def holds (disk : Disk) (path : FilePath) : Bool :=
  (disk.find? path).isSome

/-- No directory has longer names, and no path is longer, both in bytes. -/
def nameLimit : Nat := 255

def pathLimit : Nat := 4095

/-- Whether a walk comes to a directory that is asked for a name which is too long. -/
def asksTooMuch (disk : Disk) : (place : Place) → (names : List String) → Bool
  | _, [] => false
  | place, name :: rest =>
      match disk.walk place name with
      | .error _ => false
      | .ok next => nameLimit < name.utf8ByteSize || disk.asksTooMuch next rest

/-- Whether there is something at a path, unless the path is too long for that to be told. -/
def presence (disk : Disk) (path : FilePath) : Except DiskFault Bool :=
  if pathLimit < path.text.utf8ByteSize || disk.asksTooMuch (disk.start path) path.segments then
    .error { errno := .nameTooLong, path }
  else .ok (disk.holds path)

def isDirectory (disk : Disk) (path : FilePath) : Bool :=
  disk.find? path = some .directory

def read (disk : Disk) (path : FilePath) : Except DiskFault ByteArray :=
  match disk.locate path with
  | .error errno => .error { errno, path }
  | .ok place =>
      match disk.entry? place with
      | none => .error { errno := .missing, path }
      | some .directory => .error { errno := .isDirectory, path }
      | some (.file bytes) => .ok bytes

def putIn (place : Place) (entry : Entry) : List (Place × Entry) → List (Place × Entry)
  | [] => [(place, entry)]
  | (other, old) :: rest =>
      if other = place then (place, entry) :: rest else (other, old) :: putIn place entry rest

def put (disk : Disk) (place : Place) (entry : Entry) : Disk :=
  { disk with entries := putIn place entry disk.entries }

/-- The disk with something at a place, and with the directories that lead there. -/
def plant (disk : Disk) (place : Place) (entry : Entry) : Disk :=
  let parents := (List.range place.length).map fun n => place.take n
  let disk := parents.foldl
    (fun disk parent =>
      if (disk.entry? parent).isSome then disk else disk.put parent .directory)
    disk
  if (disk.entry? place).isSome && entry = .directory then disk else disk.put place entry

/-- The disk without a place and everything below it. -/
def erase (disk : Disk) (place : Place) : Disk :=
  { disk with entries := disk.entries.filter fun (other, _) => !place.isPrefixOf other }

/-- The disk with all that is at and below one place at another one. -/
def transfer (disk : Disk) (source target : Place) : Disk :=
  let moved := disk.entries.filter fun (other, _) => source.isPrefixOf other
  let rest := (disk.erase source).erase target
  { rest with
    entries := rest.entries ++ moved.map fun (other, entry) =>
      (target ++ other.drop source.length, entry) }

/-- The places below a place with what they hold, by their names from there. -/
def below (disk : Disk) (place : Place) : List (Place × Entry) :=
  (disk.entries.filter fun (other, _) => place.isPrefixOf other && other ≠ place).map
    fun (other, entry) => (other.drop place.length, entry)

/-- The name of a place in a directory; the two of dots alone do not count. -/
def nameIn? (directory place : Place) : Option String :=
  match place.getLast? with
  | none => none
  | some name =>
      if place.dropLast = directory && name ≠ "." && name ≠ ".." then some name else none

def names (disk : Disk) (place : Place) : List String :=
  (disk.entries.map Prod.fst).filterMap (nameIn? place)

def list (disk : Disk) (path : FilePath) : Except DiskFault (List String) :=
  match disk.locate path with
  | .error errno => .error { errno, path }
  | .ok place =>
      match disk.entry? place with
      | none => .error { errno := .missing, path }
      | some (.file _) => .error { errno := .notDirectory, path }
      | some .directory => .ok (disk.names place)

/-- The length of the longest place. -/
def height (disk : Disk) : Nat :=
  (disk.entries.map fun (place, _) => place.length).max?.getD 0

def listing (disk : Disk) (place : Place) : List (Place × Entry) :=
  (disk.below place).mergeSort fun a b => !decide (b.1 < a.1)

end Disk

end ApiCompiler
