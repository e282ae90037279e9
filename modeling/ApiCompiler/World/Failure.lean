import ApiCompiler.Json.Reader
import ApiCompiler.Json.Writer
import ApiCompiler.Text.Markup
import ApiCompiler.Text.Utf8
import ApiCompiler.Validation.Check
import ApiCompiler.World.Disk
import ApiCompiler.World.Log
import ApiCompiler.World.Web

/-!
How a run ends without a result: a failure it declares, with a cause and a message for its user, or
a breakdown that none of its parts handles.
-/

namespace ApiCompiler

/-- What lies behind a failure to read or write. -/
inductive Cause
  | noFile (path : String)
  | disk (fault : DiskFault)
  | web (fault : WebFault)
  | json (fault : Json.ReadFault)
  | yaml
  | other (text : String)
  deriving DecidableEq

namespace Cause

def message? : Cause → Option String
  | .noFile path => some ("File not found: " ++ path)
  | .disk fault => some fault.message
  | .web fault => some fault.message
  | .json fault => some fault.message
  | .yaml => none
  | .other text => some text

end Cause

inductive Failure
  | general (message : String)
  | schema (message : String)
  | load (source : String) (cause : Option Cause)
  | validation (source : String) (errors : List String)
  | unresolved (reference : String) (location : Option String)
  | unsupported (construct : String) (suggestion : Option String)
  | missing (field : String) (context : Option String)
  | emission (outputPath : String) (cause : Option Cause)
  | configuration (message : String) (cause : Option Cause) (path field : Option String)
  deriving DecidableEq

namespace Failure

private def followedBy (before : String) (text : Option String) : String :=
  match text with
  | none => ""
  | some text => if text.isEmpty then "" else before ++ text

private def causeText (cause : Option Cause) : String :=
  match cause.bind Cause.message? with
  | none => ""
  | some text => ": " ++ text

def message : Failure → String
  | .general message => message
  | .schema message => message
  | .load source cause => "Failed to load schema from '" ++ source ++ "'" ++ causeText cause
  | .validation source errors =>
      "Schema validation failed for '" ++ source ++ "'" ++
        (if errors.isEmpty then "" else ": " ++ String.intercalate "; " errors)
  | .unresolved reference location =>
      "Unresolved reference '" ++ reference ++ "'" ++ followedBy " in " location ++
        "; all references must be resolved before generation"
  | .unsupported construct suggestion =>
      "Unsupported construct: " ++ construct ++ followedBy ". " suggestion
  | .missing field context => "Failed to determine " ++ field ++ followedBy " for " context
  | .emission outputPath cause =>
      "Failed to write output to '" ++ outputPath ++ "'" ++ causeText cause
  | .configuration message cause path field =>
      message ++ causeText cause ++
        (match path with
          | none => ""
          | some path => if path.isEmpty then "" else " in '" ++ path ++ "'") ++
        (match field with
          | none => ""
          | some field => if field.isEmpty then "" else " (field: " ++ field ++ ")")

/-- The message as far as its cause has a text of its own. -/
def message? (failure : Failure) : Option String :=
  match failure with
  | .load _ (some .yaml) => none
  | .configuration _ (some .yaml) _ _ => none
  | _ => some failure.message

end Failure

/-- A value that is asked for a member although it cannot have any. -/
inductive Memberless
  | list
  | text
  | scalar (value : Scalar)
  deriving DecidableEq

namespace Memberless

private def kindName : Scalar → String
  | .null => "NoneType"
  | .bool _ => "bool"
  | .int _ => "int"
  | .float _ => "float"
  | .text _ => "str"
  | .date _ => "datetime.date"
  | .time _ => "datetime.time"
  | .timestamp _ => "datetime.datetime"

def message : Memberless → String
  | .list => "list indices must be integers or slices, not str"
  | .text => "string indices must be integers, not 'str'"
  | .scalar value => "argument of type '" ++ kindName value ++ "' is not iterable"

end Memberless

/-- What goes wrong without being declared by any part of the program. -/
inductive Breakdown
  | issues (list : List Issue)
  | undecodable (fault : Text.Utf8Fault)
  | toml
  | digits (count : Nat)
  | calendar (fault : CalendarFault)
  | danglingPointer (pointer : String)
  | unwritable (fault : Json.WriteFault)
  | badNumber (base : Nat) (text : String)
  | badFraction (text : String)
  | badCharacter
  | badWord (text : String)
  | noNumber
  | noDate
  | disk (fault : DiskFault)
  | noMembers (value : Memberless)
  | memberName
  | variable (message : String)
  | markup (fault : Text.Markup.Fault)
  | address (fault : UrlFault)
  | webAddress (text : String)
  | exhausted
  deriving DecidableEq

namespace Breakdown

private def calendarMessage : CalendarFault → String
  | .year value => "year " ++ toString value ++ " is out of range"
  | .month => "month must be in 1..12"
  | .day => "day is out of range for month"
  | .hour => "hour must be in 0..23"
  | .minute => "minute must be in 0..59"
  | .second => "second must be in 0..59"
  | .offset seconds =>
      let days := Int.fdiv seconds 86400
      let rest := Int.fmod seconds 86400
      "offset must be a timedelta strictly between -timedelta(hours=24) and " ++
        "timedelta(hours=24), not datetime.timedelta(" ++
        String.intercalate ", "
          ((if days = 0 then [] else ["days=" ++ toString days]) ++
            (if rest = 0 then [] else ["seconds=" ++ toString rest])) ++ ")"

def message : Breakdown → String
  | .issues list => String.intercalate "; " (list.map Issue.line)
  | .undecodable fault => fault.message
  | .toml => "invalid TOML"
  | .digits count => (Json.ReadFault.digits count).message
  | .calendar fault => calendarMessage fault
  | .danglingPointer pointer => "JSON pointer path not found: " ++ pointer
  | .unwritable fault => fault.message
  | .badNumber base text =>
      "invalid literal for int() with base " ++ toString base ++ ": " ++ text.shown
  | .badFraction text => "could not convert string to float: " ++ text.shown
  | .badCharacter => "chr() arg not in range(0x110000)"
  | .badWord text => text.shown
  | .noNumber => "string index out of range"
  | .noDate => "'NoneType' object has no attribute 'groupdict'"
  | .disk fault => fault.message
  | .noMembers value => value.message
  | .memberName => "keywords must be strings"
  | .variable message => message
  | .markup fault => fault.message
  | .address fault => fault.message
  | .webAddress text => text
  | .exhausted => "maximum recursion depth exceeded"

/-- Whether a value is at fault, its form or its bounds: so it is with what cannot be read or written. -/
def isOfValue : Breakdown → Bool
  | .issues _ | .undecodable _ | .toml | .digits _ | .calendar _ | .danglingPointer _
  | .unwritable .digits | .badNumber .. | .badFraction _ | .badCharacter | .variable _
  | .address _ => true
  | .unwritable _ | .badWord _ | .noNumber | .noDate | .disk _ | .noMembers _ | .memberName
  | .markup _ | .webAddress _ | .exhausted => false

end Breakdown

inductive Problem
  | declared (failure : Failure)
  | undeclared (breakdown : Breakdown)
  deriving DecidableEq

/-- A computation that may end early and tells about itself on the way. -/
abbrev Logged (α : Type) := ExceptT Problem (StateM Log) α

namespace Logged

def note (level : Level) (topic : Topic) (message : String) : Logged Unit :=
  modify fun (log : Log) => log.push ⟨level, topic, message⟩

def ofExcept {α : Type} (result : Except Problem α) : Logged α :=
  ExceptT.mk (pure result)

theorem run_bind_eq_ok {α β : Type} {first : Logged α} {next : α → Logged β} {log log' : Log}
    {b : β} :
    (first >>= next).run log = (.ok b, log') ↔
      ∃ a middle, first.run log = (.ok a, middle) ∧ (next a).run middle = (.ok b, log') := by
  have unfolded : (first >>= next).run log =
      ExceptT.bindCont next (first.run log).1 (first.run log).2 := rfl
  rw [unfolded]
  rcases first.run log with ⟨result, middle⟩
  cases result with
  | ok a =>
      constructor
      · exact fun ran => ⟨a, middle, rfl, ran⟩
      · rintro ⟨_, _, ⟨⟩, ran⟩
        exact ran
  | error problem =>
      constructor
      · intro same
        cases same
      · rintro ⟨a, middle, ⟨⟩, -⟩

theorem run_ofExcept {α : Type} (result : Except Problem α) (log : Log) :
    (ofExcept result).run log = (result, log) := rfl

end Logged

def Check.toProblem {α : Type} : Check α → Except Problem α
  | .ok a => .ok a
  | .bad issues => .error (.undeclared (.issues issues))

end ApiCompiler
