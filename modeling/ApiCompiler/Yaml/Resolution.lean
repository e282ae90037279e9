import ApiCompiler.Number.Binary64
import ApiCompiler.Text.Segments

/-!
The tags of scalars without a tag of their own, which a plain text gets by its form.
-/

namespace ApiCompiler.Yaml

/-- What the tags of the language itself start with. -/
def standardTag (name : String) : String :=
  "tag:yaml.org,2002:" ++ name

def isDigitOrGap (c : Char) : Bool :=
  c.isDigit || c = '_'

def dropSign : List Char → List Char
  | '+' :: rest => rest
  | '-' :: rest => rest
  | text => text

private def isHexOrGap (c : Char) : Bool :=
  c = '_' || (c.toNat < 0x80 && (Text.asciiDigit? 16 c).isSome)

private def isNonEmptyOf (p : Char → Bool) (text : List Char) : Bool :=
  !text.isEmpty && text.all p

/-- A part of a number in base sixty: one digit, or two of which the first is below six. -/
private def isSexagesimal (part : List Char) : Bool :=
  match part with
  | [a] => a.isDigit
  | [a, b] => '0' ≤ a && a ≤ '5' && b.isDigit
  | _ => false

/-- Digits and gaps that start with a digit. -/
private def isGapped (text : List Char) : Bool :=
  ((text.head?.map Char.isDigit).getD false) && text.all isDigitOrGap

def isInteger (text : List Char) : Bool :=
  match dropSign text with
  | '0' :: 'b' :: rest => isNonEmptyOf (fun c => c = '0' || c = '1' || c = '_') rest
  | '0' :: 'x' :: rest => isNonEmptyOf isHexOrGap rest
  | ['0'] => true
  | '0' :: rest => rest.all fun c => c = '_' || ('0' ≤ c && c ≤ '7')
  | body =>
      match Text.splitAt ':' body with
      | head :: parts => isGapped head && parts.all isSexagesimal
      | [] => false

/-- A signed exponent, or nothing. -/
private def isExponent : List Char → Bool
  | [] => true
  | e :: sign :: digits =>
      (e = 'e' || e = 'E') && (sign = '+' || sign = '-') && isNonEmptyOf Char.isDigit digits
  | _ => false

private def isFraction (text : List Char) : Bool :=
  isExponent (text.dropWhile isDigitOrGap)

def isFloat (text : List Char) : Bool :=
  let body := dropSign text
  let infinities := [".inf", ".Inf", ".INF"].map String.toList
  let notNumbers := [".nan", ".NaN", ".NAN"].map String.toList
  infinities.contains body || notNumbers.contains text ||
    match text with
    | '.' :: c :: rest => c.isDigit && isFraction rest
    | _ =>
        match Text.cut '.' body with
        | (whole, some fraction) =>
            match Text.splitAt ':' whole with
            | [_] => isGapped whole && isFraction fraction
            | head :: parts =>
                isGapped head && parts.all isSexagesimal && fraction.all isDigitOrGap
            | [] => false
        | (_, none) => false

private def truthWords : List String :=
  ["yes", "Yes", "YES", "no", "No", "NO", "true", "True", "TRUE", "false", "False", "FALSE",
    "on", "On", "ON", "off", "Off", "OFF"]

private def nullWords : List String :=
  ["", "~", "null", "Null", "NULL"]

/-- Digits at the start of a text, at least as many as asked for and no more than allowed. -/
private def digitsAt (least most : Nat) (text : List Char) : Option (Nat × List Char) :=
  let run := (text.take most).takeWhile Char.isDigit
  if run.length < least then none
  else some (Text.ofDigits 10 (run.filterMap Text.digit?), text.drop run.length)

private def expect (c : Char) : List Char → Option (List Char)
  | d :: rest => if c = d then some rest else none
  | [] => none

/-- The offset of a time zone in seconds; `Z` is none. -/
private def zone? (text : List Char) : Option Int :=
  match text with
  | ['Z'] => some 0
  | sign :: rest => do
      let factor ← if sign = '+' then some 1 else if sign = '-' then some (-1) else none
      let (hours, rest) ← digitsAt 1 2 rest
      let minutes ←
        if rest.isEmpty then some 0
        else do
          let (minutes, rest) ← digitsAt 2 2 (← expect ':' rest)
          if rest.isEmpty then some minutes else none
      return factor * ((hours * 3600 + minutes * 60 : Nat) : Int)
  | [] => none

structure ClockParts where
  hour : Nat
  minute : Nat
  second : Nat
  micro : Nat
  offset : Option Int

structure TimeParts where
  year : Nat
  month : Nat
  day : Nat
  clock : Option ClockParts

private def isBlankChar (c : Char) : Bool :=
  c = ' ' || c = '\t'

/-- Six digits of a fraction of a second, further ones being dropped. -/
private def microseconds (digits : List Char) : Nat :=
  let six := digits.take 6 ++ List.replicate (6 - digits.length) '0'
  Text.ofDigits 10 (six.filterMap Text.digit?)

private def clock? (text : List Char) : Option ClockParts := do
  let (hour, rest) ← digitsAt 1 2 text
  let (minute, rest) ← digitsAt 2 2 (← expect ':' rest)
  let (second, rest) ← digitsAt 2 2 (← expect ':' rest)
  let (fraction, rest) :=
    match rest with
    | '.' :: rest => (rest.takeWhile Char.isDigit, rest.dropWhile Char.isDigit)
    | rest => ([], rest)
  let zone := rest.dropWhile isBlankChar
  let offset ← if rest.isEmpty then some none else (zone? zone).map some
  return ⟨hour, minute, second, microseconds fraction, offset⟩

/--
The parts of a date alone, or of a date and a time of day, which are set apart by the letter T or
by blanks.
-/
def timeParts? (text : List Char) : Option TimeParts := do
  let (year, rest) ← digitsAt 4 4 text
  let (month, afterMonth) ← digitsAt 1 2 (← expect '-' rest)
  let (day, rest) ← digitsAt 1 2 (← expect '-' afterMonth)
  match rest with
  | [] => some ⟨year, month, day, none⟩
  | c :: after =>
      let clock ←
        if c = 'T' || c = 't' then clock? after
        else if isBlankChar c then clock? (after.dropWhile isBlankChar)
        else none
      return ⟨year, month, day, some clock⟩

/-- A date alone counts as one if its month and day have two digits each. -/
private def isTimestamp (text : List Char) : Bool :=
  match timeParts? text with
  | some ⟨_, _, _, none⟩ => text.length = 10
  | some _ => true
  | none => false

def plainTag (text : String) : String :=
  let chars := text.toList
  standardTag <|
    if truthWords.contains text then "bool"
    else if isFloat chars then "float"
    else if isInteger chars then "int"
    else if text = "<<" then "merge"
    else if nullWords.contains text then "null"
    else if isTimestamp chars then "timestamp"
    else if text = "=" then "value"
    else if text = "!" || text = "&" || text = "*" then "yaml"
    else "str"

end ApiCompiler.Yaml
