import ApiCompiler.Text.Segments

/-!
File paths as they are written: relative or from the root, without empty and `.` segments.
-/

namespace ApiCompiler

structure FilePath where
  isAbsolute : Bool
  segments : List String
  deriving DecidableEq

namespace FilePath

def ofText (text : String) : FilePath :=
  let parts := (Text.splitAt '/' text.toList).filter fun part => !part.isEmpty && part ≠ ['.']
  ⟨text.toList.head? = some '/', parts.map String.ofList⟩

def text (path : FilePath) : String :=
  let joined := String.intercalate "/" path.segments
  if path.isAbsolute then "/" ++ joined
  else if path.segments.isEmpty then "."
  else joined

instance : ToString FilePath where
  toString := text

/-- The path from here on; one from the root stays as it is. -/
def join (base path : FilePath) : FilePath :=
  if path.isAbsolute then path else ⟨base.isAbsolute, base.segments ++ path.segments⟩

def child (path : FilePath) (name : String) : FilePath :=
  ⟨path.isAbsolute, path.segments ++ [name]⟩

def parent (path : FilePath) : FilePath :=
  ⟨path.isAbsolute, path.segments.dropLast⟩

def climb (done : List String) (segment : String) : List String :=
  if segment = ".." then done.dropLast else done ++ [segment]

/-- The segments from the root, with every `..` taking back the one before it. -/
def resolveFrom (workingDirectory : List String) (path : FilePath) : List String :=
  path.segments.foldl climb (if path.isAbsolute then [] else workingDirectory)

def absolute (segments : List String) : FilePath :=
  ⟨true, segments⟩

/-- What follows the last point of the last segment, with the point, unless nothing is before it. -/
def suffix (path : FilePath) : String :=
  match path.segments.getLast? with
  | none => ""
  | some name =>
      let reversed := name.toList.reverse
      let ending := reversed.takeWhile (· ≠ '.')
      let rest := reversed.dropWhile (· ≠ '.')
      if ending.isEmpty || rest.length < 2 then "" else String.ofList ('.' :: ending.reverse)

/-- Whether the suffix is one of those of YAML files, in any letter case. -/
def isYaml (path : FilePath) : Bool :=
  [".yaml", ".yml"].contains path.suffix.toLower

end FilePath

end ApiCompiler
