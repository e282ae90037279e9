import ApiCompiler.Loading.Content
import ApiCompiler.Settings.Basic
import ApiCompiler.Toml.Reader

/-!
Where settings come from: a file that is named, or one of those that are looked for in the working
directory.
-/

namespace ApiCompiler.Settings

private def failure (message : String) (path : Option String) (field : Option String) : Problem :=
  .declared (.configuration message none path field)

def expanded (environment : Environment) (path : Option String) (value : Value) :
    Except Problem Value :=
  (Variables.expand environment value).mapError fun name =>
    failure ("Environment variable '" ++ name ++ "' is not set") path none

private def jobsVariableMessage : String :=
  "error parsing value for field \"" ++ jobsMember ++ "\" from source \"EnvSettingsSource\""

/-- A fault of the settings in a file; of several issues the first one is told. -/
private def faultIn (path : String) : SettingsFault → Problem
  | .issues list =>
      let issue := list.headD ⟨[], .missing⟩
      failure ("Invalid configuration: " ++ issue.kind.message) (some path)
        (some (String.intercalate "." issue.path))
  | .jobsVariable =>
      failure ("Invalid configuration: Value error, " ++ jobsVariableMessage) (some path) (some "")
  | .memberName => .undeclared .memberName

def ofFileValue (environment : Environment) (path : String) (value : Value) :
    Except Problem Settings := do
  let value ← expanded environment (some path) value
  (ofValue environment value).mapError (faultIn path)

def fileContent (disk : Disk) (path : String) : Except Problem Value := do
  let unreadable (cause : Cause) : Problem :=
    .declared (.configuration "Failed to read configuration" (some cause) (some path) none)
  let bytes ← (disk.read (.ofText path)).mapError fun fault => unreadable (.disk fault)
  let text ← Loading.decodeText bytes
  match ← (Yaml.read text).mapError (Yaml.Fault.toProblem (unreadable .yaml)) with
  | .object members => return .object members
  | _ => .error (failure "Configuration must be a mapping" (some path) none)

/-- The table of this program in a project's file, if the file has one. -/
private def projectTable? (project : Value) : Except Problem (Option Value) :=
  let table := "spectralgen"
  match project.member? "tool" with
  | none => .ok none
  | some (.object members) => .ok (Members.find? table members)
  | some (.list items) =>
      if items.any fun item => item.text? = some table then
        .error (.undeclared (.noMembers .list))
      else .ok none
  | some (.scalar (.text s)) =>
      if Text.occurs table.toList s.toList then .error (.undeclared (.noMembers .text))
      else .ok none
  | some (.scalar s) => .error (.undeclared (.noMembers (.scalar s)))

private def readProject (disk : Disk) (path : FilePath) : Except Problem (Option Value) := do
  let bytes ← (disk.read path).mapError fun fault => .undeclared (.disk fault)
  let text ← Loading.decodeText bytes
  match Toml.read text with
  | .ok project => projectTable? project
  | .error .malformed => .error (.undeclared .toml)
  | .error (.digits count) => .error (.undeclared (.digits count))

/-- The files that are looked for, the first one before the second. -/
def standardFiles : List String := ["spectralgen.yaml", "spectralgen.yml"]

def projectFile : String := "pyproject.toml"

private def inWorkingDirectory (disk : Disk) (name : String) : FilePath :=
  (FilePath.absolute disk.workingDirectory).join (.ofText name)

private def notFound : Problem :=
  failure "No configuration found; pass --config or create spectralgen.yaml" none none

/-- The settings that are found in the working directory. -/
def find (disk : Disk) (environment : Environment) : Except Problem Settings := do
  let files := standardFiles.map (inWorkingDirectory disk)
  match files.find? disk.holds with
  | some path => ofFileValue environment path.text (← fileContent disk path.text)
  | none =>
      let path := inWorkingDirectory disk projectFile
      if !disk.holds path then .error notFound
      else
        match ← readProject disk path with
        | some value => ofFileValue environment path.text value
        | none => .error notFound

/-- The settings in a file, or those found if no file is named. -/
def load (disk : Disk) (environment : Environment) (path : Option String) :
    Except Problem Settings := do
  match path.filter fun path => !path.isEmpty with
  | some path => ofFileValue environment path (← fileContent disk path)
  | none => find disk environment

/-- What a command says about the jobs of its run. -/
structure Selection where
  settingsPath : Option String := none
  source : Option String := none
  name : Option String := none
  output : Option String := none
  deriving DecidableEq

/-- The settings of a run: one description that is named, or what a file lists. -/
def select (disk : Disk) (environment : Environment) (selection : Selection) :
    Except Problem Settings :=
  match selection.source with
  | none =>
      if selection.name.isSome || selection.output.isSome then
        .error (failure "--name and --output require --openapi" none none)
      else load disk environment selection.settingsPath
  | some source =>
      if selection.settingsPath.isSome then
        .error (failure "--config cannot be combined with --openapi" none none)
      else
        let standard : Job := { source, name := selection.name }
        let output := (selection.output.filter fun output => !output.isEmpty).getD standard.output
        (ofJob environment { standard with output }).mapError fun fault =>
          match fault with
          | .issues list => .undeclared (.issues list)
          | .jobsVariable => .undeclared (.variable jobsVariableMessage)
          | .memberName => .undeclared .memberName

end ApiCompiler.Settings
