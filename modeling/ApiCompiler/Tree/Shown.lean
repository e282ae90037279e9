import ApiCompiler.Json.Writer

/-!
The text of a value where a document's value is told to a person: a text as it is, anything else in
the notation that shows a list or an object with its parts. Integers with too many digits have no text.
-/

namespace ApiCompiler

private def commaSeparated (parts : List (List Char)) : List Char :=
  Text.joinWith [',', ' '] parts

private def call (name : String) (arguments : List (List Char)) : List Char :=
  name.toList ++ '(' :: commaSeparated arguments ++ [')']

private def clockParts (t : ClockTime) : List Nat :=
  [t.hour, t.minute] ++
    (if t.micro ≠ 0 then [t.second, t.micro] else if t.second ≠ 0 then [t.second] else [])

private def showOffset (seconds : Int) : List Char :=
  let days := Int.fdiv seconds 86400
  let rest := Int.fmod seconds 86400
  if seconds = 0 then "datetime.timezone.utc".toList
  else
    call "datetime.timezone" [call "datetime.timedelta"
      ((if days = 0 then [] else ["days=".toList ++ (toString days).toList]) ++
        (if rest = 0 then [] else ["seconds=".toList ++ (toString rest).toList]))]

def Scalar.shown : Scalar → List Char
  | .null => "None".toList
  | .bool true => "True".toList
  | .bool false => "False".toList
  | .int n => (toString n).toList
  | .float x => x.text
  | .text s => Text.showQuoted s.toList
  | .date d => call "datetime.date" ([d.year, d.month, d.day].map Text.decimal)
  | .time t => call "datetime.time" ((clockParts t).map Text.decimal)
  | .timestamp t =>
      call "datetime.datetime"
        (([t.date.year, t.date.month, t.date.day] ++ clockParts t.time).map Text.decimal ++
          match t.offset with
          | none => []
          | some seconds => ["tzinfo=".toList ++ showOffset seconds])

mutual
private def showValue : Value → List Char
  | .scalar s => s.shown
  | .list items => '[' :: commaSeparated (showItems items) ++ [']']
  | .object members => '\x7b' :: commaSeparated (showMembers members) ++ ['\x7d']

private def showItems : List Value → List (List Char)
  | [] => []
  | item :: rest => showValue item :: showItems rest

private def showMembers : List (Scalar × Value) → List (List Char)
  | [] => []
  | (name, value) :: rest => (name.shown ++ ':' :: ' ' :: showValue value) :: showMembers rest
end

/-- Whether a scalar has a text. -/
def Scalar.isShowable : Scalar → Bool
  | .int n => (Json.intText n).toOption.isSome
  | _ => true

mutual
def Value.isShowable : Value → Bool
  | .scalar s => s.isShowable
  | .list items => areShowable items
  | .object members => membersAreShowable members

def Value.areShowable : List Value → Bool
  | [] => true
  | item :: rest => item.isShowable && areShowable rest

def Value.membersAreShowable : List (Scalar × Value) → Bool
  | [] => true
  | (name, value) :: rest => name.isShowable && value.isShowable && membersAreShowable rest
end

/-- A value on its own: texts, dates and times lose their quotes or notation. -/
def Value.shown : Value → String
  | .scalar (.text s) => s
  | .scalar (.date d) => String.ofList d.text
  | .scalar (.time t) => String.ofList t.text
  | .scalar (.timestamp t) => String.ofList (t.text ' ')
  | value => String.ofList (showValue value)

end ApiCompiler
