import ApiCompiler.Toml.Text
import ApiCompiler.Tree.Value

/-!
The scalars of TOML that are not strings: truth values, dates and times, and numbers.
-/

namespace ApiCompiler.Toml

private def startsWithDigit (base : Nat) : List Char → Bool
  | [] => false
  | c :: _ => (Text.asciiDigit? base c).isSome

private def digitsFrom (base : Nat) (started : Bool) : List Char → List Nat × List Char
  | [] => ([], [])
  | c :: rest =>
      match Text.asciiDigit? base c with
      | some digit =>
          let (digits, after) := digitsFrom base true rest
          (digit :: digits, after)
      | none =>
          if started && c = '_' && startsWithDigit base rest then digitsFrom base true rest
          else ([], c :: rest)

/-- Digits in a base, where single underscores may stand between two of them. -/
private def digitRun (base : Nat) (text : List Char) : List Nat × List Char :=
  digitsFrom base false text

private def fixedNumber? (count : Nat) (text : List Char) : Option (Nat × List Char) := do
  if text.length < count then none
  let digits ← (text.take count).mapM (Text.asciiDigit? 10)
  return (Text.ofDigits 10 digits, text.drop count)

private def skipChar? (c : Char) : List Char → Option (List Char)
  | [] => none
  | d :: rest => if d = c then some rest else none

private def clock? (text : List Char) : Option ((Nat × Nat) × List Char) := do
  let (hour, rest) ← fixedNumber? 2 text
  let (minute, rest) ← fixedNumber? 2 (← skipChar? ':' rest)
  if 23 < hour || 59 < minute then none
  return ((hour, minute), rest)

/-- A fraction of a second in millionths; what is smaller is left out. -/
private def fraction (text : List Char) : Nat × List Char :=
  match text with
  | '.' :: after =>
      let digits := after.takeWhile Char.isDigit
      let kept := digits.take 6
      if digits.isEmpty then (0, text)
      else
        (Text.ofDigits 10 (kept.filterMap (Text.asciiDigit? 10)) * Nat.pow 10 (6 - kept.length),
          after.drop digits.length)
  | _ => (0, text)

private def time? (text : List Char) : Option (ClockTime × List Char) := do
  let ((hour, minute), rest) ← clock? text
  let (second, rest) ← fixedNumber? 2 (← skipChar? ':' rest)
  if 59 < second then none
  let (micro, rest) := fraction rest
  return (⟨hour, minute, second, micro⟩, rest)

/-- An offset from universal time in seconds, if there is one. -/
private def offset (text : List Char) : Option Int × List Char :=
  let signed (sign : Int) (rest : List Char) : Option Int × List Char :=
    match clock? rest with
    | some ((hours, minutes), rest) => (some (sign * (hours * 3600 + minutes * 60 : Nat)), rest)
    | none => (none, text)
  match text with
  | 'Z' :: rest => (some 0, rest)
  | 'z' :: rest => (some 0, rest)
  | '+' :: rest => signed 1 rest
  | '-' :: rest => signed (-1) rest
  | _ => (none, text)

/-- Year, month and day with their separators; a day that its month lacks is let through. -/
private def dateParts? (text : List Char) : Option ((Nat × Nat × Nat) × List Char) := do
  let (year, rest) ← fixedNumber? 4 text
  let (month, rest) ← fixedNumber? 2 (← skipChar? '-' rest)
  let (day, rest) ← fixedNumber? 2 (← skipChar? '-' rest)
  if month < 1 || 12 < month || day < 1 || 31 < day then none
  return ((year, month, day), rest)

/-- A date, with the time of day and offset that follow it. -/
private def readDate? (text : List Char) : Option (Except Fault (Scalar × List Char)) := do
  let ((year, month, day), rest) ← dateParts? text
  match Date.make year month day with
  | .error _ => some malformed
  | .ok date =>
      let following :=
        match rest with
        | c :: after => if c = 'T' || c = 't' || c = ' ' then time? after else none
        | [] => none
      match following with
      | none => some (.ok (.date date, rest))
      | some (time, rest) =>
          let (offset, rest) := offset rest
          some (.ok (.timestamp ⟨date, time, offset⟩, rest))

private def sign (text : List Char) : Bool × List Char :=
  match text with
  | '-' :: rest => (true, rest)
  | '+' :: rest => (false, rest)
  | _ => (false, text)

private def baseOf? (letter : Char) : Option Nat :=
  [('x', 16), ('o', 8), ('b', 2)].lookup letter

private def readBased? (text : List Char) : Option (Scalar × List Char) := do
  match text with
  | '0' :: letter :: rest =>
      let base ← baseOf? letter
      let (digits, rest) := digitRun base rest
      if digits.isEmpty then none else some (.int (Text.ofDigits base digits), rest)
  | _ => none

/-- The digits after a point, of which there is at least one. -/
private def decimals (text : List Char) : List Nat × List Char :=
  match text with
  | '.' :: rest =>
      let (digits, after) := digitRun 10 rest
      if digits.isEmpty then ([], text) else (digits, after)
  | _ => ([], text)

private def exponent? (text : List Char) : Option (Int × List Char) :=
  match text with
  | e :: rest =>
      if e = 'e' || e = 'E' then
        let (negative, rest) := sign rest
        let (digits, after) := digitRun 10 rest
        let size : Int := Text.ofDigits 10 digits
        if digits.isEmpty then none else some (if negative then -size else size, after)
      else none
  | [] => none

/-- A decimal number; one without point and exponent is an integer. -/
private def readDecimal? (text : List Char) : Option (Except Fault (Scalar × List Char)) := do
  let (negative, body) := sign text
  let (whole, rest) :=
    match body with
    | '0' :: rest => ([0], rest)
    | _ => digitRun 10 body
  if whole.isEmpty then none
  let (decimals, rest) := decimals rest
  match exponent? rest with
  | none =>
      if decimals.isEmpty then
        if Text.digitLimit < whole.length then some (.error (.digits whole.length))
        else
          let size : Int := Text.ofDigits 10 whole
          some (.ok (.int (if negative then -size else size), rest))
      else
        some (.ok (.float (.ofDecimal negative (Text.ofDigits 10 (whole ++ decimals))
          (-decimals.length)), rest))
  | some (exponent, rest) =>
      some (.ok (.float (.ofDecimal negative (Text.ofDigits 10 (whole ++ decimals))
        (exponent - decimals.length)), rest))

private def words : List (String × Scalar) :=
  [("true", .bool true), ("false", .bool false), ("inf", .float (.infinity false)),
    ("+inf", .float (.infinity false)), ("-inf", .float (.infinity true)), ("nan", .float .nan),
    ("+nan", .float .nan), ("-nan", .float .nan)]

private def readWord? (text : List Char) : Option (Scalar × List Char) :=
  words.findSome? fun (word, scalar) =>
    (Text.after? word.toList text).map fun rest => (scalar, rest)

/-- A scalar that is not a string: what looks like a date or a time is not taken for a number. -/
def readScalar (text : List Char) : Except Fault (Scalar × List Char) :=
  match readDate? text with
  | some reading => reading
  | none =>
      match time? text with
      | some (time, rest) => .ok (.time time, rest)
      | none =>
          match readBased? text with
          | some reading => .ok reading
          | none =>
              match readDecimal? text with
              | some reading => reading
              | none =>
                  match readWord? text with
                  | some reading => .ok reading
                  | none => malformed

end ApiCompiler.Toml
