import ApiCompiler.Settings.Source

/-!
The words of a command line. An option has a long name after two dashes and may have a letter after
one. Its value is the next word, or follows an equals sign after the name or the letter itself.
Letters without values may share a dash, and two dashes alone end the options.
-/

namespace ApiCompiler.Command

inductive Setting
  | settingsPath
  | source
  | name
  | output
  | verbose
  | help
  deriving DecidableEq

structure OptionForm where
  setting : Setting
  longName : String
  letter : Option Char := none
  takesValue : Bool := true

inductive UsageFault
  | missingCommand
  | unknownCommand (name : String)
  | unknownOption (name : String)
  | missingValue (name : String)
  | unexpectedValue (name : String)
  | unexpectedArgument (argument : String)
  deriving DecidableEq

def UsageFault.message : UsageFault → String
  | .missingCommand => "Missing command."
  | .unknownCommand name => "No such command '" ++ name ++ "'."
  | .unknownOption name => "No such option: " ++ name
  | .missingValue name => "Option '" ++ name ++ "' requires an argument."
  | .unexpectedValue name => "Option '" ++ name ++ "' does not take a value."
  | .unexpectedArgument argument => "Got unexpected extra argument (" ++ argument ++ ")"

/-- An option that was given, with its value if one belongs to it. -/
structure Given where
  setting : Setting
  value : String := ""
  deriving DecidableEq

/-- What one word gives, and the option that waits for the next word. -/
structure WordReading where
  given : List Given
  pending : Option OptionForm := none

private def helpForm : OptionForm :=
  { setting := .help, longName := "--help", takesValue := false }

def generateForms : List OptionForm :=
  [{ setting := .settingsPath, longName := "--config", letter := some 'c' },
    { setting := .source, longName := "--openapi", letter := some 'o' },
    { setting := .name, longName := "--name", letter := some 'n' },
    { setting := .output, longName := "--output" },
    { setting := .verbose, longName := "--verbose", letter := some 'v', takesValue := false },
    helpForm]

private def isOption (word : String) : Bool :=
  match word.toList with
  | '-' :: _ :: _ => true
  | _ => false

/-- The letters after one dash, the last of which may have its value right behind it. -/
private def readLetters (forms : List OptionForm) : List Char → Except UsageFault WordReading
  | [] => .ok ⟨[], none⟩
  | c :: rest =>
      match forms.find? fun form => form.letter = some c with
      | none => .error (.unknownOption (String.ofList ['-', c]))
      | some form =>
          if form.takesValue then
            if rest.isEmpty then .ok ⟨[], some form⟩
            else .ok ⟨[⟨form.setting, String.ofList rest⟩], none⟩
          else do
            let reading ← readLetters forms rest
            return { reading with given := ⟨form.setting, ""⟩ :: reading.given }

private def readOption (forms : List OptionForm) (word : String) :
    Except UsageFault WordReading :=
  let (name, value) := Text.cut '=' word.toList
  match forms.find? fun form => form.longName.toList = name with
  | some form =>
      match form.takesValue, value with
      | true, none => .ok ⟨[], some form⟩
      | true, some value => .ok ⟨[⟨form.setting, String.ofList value⟩], none⟩
      | false, none => .ok ⟨[⟨form.setting, ""⟩], none⟩
      | false, some _ => .error (.unexpectedValue form.longName)
  | none =>
      match word.toList with
      | '-' :: '-' :: _ => .error (.unknownOption (String.ofList name))
      | _ :: letters => readLetters forms letters
      | [] => .ok ⟨[], none⟩

/-- The options among some words, and the other words; after the first of those only if `mixed`. -/
def readWords (forms : List OptionForm) (mixed : Bool) :
    List String → Except UsageFault (List Given × List String)
  | [] => .ok ([], [])
  | word :: rest =>
      if word = "--" then .ok ([], rest)
      else if isOption word then
        match readOption forms word with
        | .error fault => .error fault
        | .ok ⟨given, none⟩ => do
            let (more, others) ← readWords forms mixed rest
            return (given ++ more, others)
        | .ok ⟨given, some form⟩ =>
            match rest with
            | [] => .error (.missingValue form.longName)
            | value :: rest => do
                let (more, others) ← readWords forms mixed rest
                return (given ++ ⟨form.setting, value⟩ :: more, others)
      else if mixed then do
        let (more, others) ← readWords forms mixed rest
        return (more, word :: others)
      else .ok ([], word :: rest)

inductive Request
  | generate (selection : Settings.Selection)
  | version
  | help
  deriving DecidableEq

private def lastValue (setting : Setting) (given : List Given) : Option String :=
  (given.reverse.find? fun item => item.setting = setting).map Given.value

private def asksForHelp (given : List Given) : Bool :=
  given.any fun item => item.setting = .help

private def readCommand (forms : List OptionForm) (words : List String)
    (request : List Given → Request) : Except UsageFault Request := do
  let (given, others) ← readWords forms true words
  if asksForHelp given then return .help
  match others with
  | [] => return request given
  | argument :: _ => .error (.unexpectedArgument argument)

private def generateRequest (given : List Given) : Request :=
  .generate
    { settingsPath := lastValue .settingsPath given
      source := lastValue .source given
      name := lastValue .name given
      output := lastValue .output given }

def readRequest (words : List String) : Except UsageFault Request := do
  let (given, others) ← readWords [helpForm] false words
  if asksForHelp given then return .help
  match others with
  | [] => .error .missingCommand
  | "generate" :: rest => readCommand generateForms rest generateRequest
  | "version" :: rest => readCommand [helpForm] rest fun _ => .version
  | name :: _ => .error (.unknownCommand name)

end ApiCompiler.Command
