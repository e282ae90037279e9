import ApiCompiler.Tree.Value

/-!
Reading JSON text into a document tree. Numbers without fraction and exponent are integers of any
size, the words `NaN`, `Infinity` and `-Infinity` are numbers too, and of two members with one name
the later one gives the value and the earlier one the place.
-/

namespace ApiCompiler.Json

inductive Expectation
  | value
  | memberName
  | colon
  | comma
  | endOfText
  | closingQuote
  | printable
  | escape
  | unicodeEscape
  | noByteOrderMark
  deriving DecidableEq

def Expectation.message : Expectation → String
  | .value => "Expecting value"
  | .memberName => "Expecting property name enclosed in double quotes"
  | .colon => "Expecting ':' delimiter"
  | .comma => "Expecting ',' delimiter"
  | .endOfText => "Extra data"
  | .closingQuote => "Unterminated string starting at"
  | .printable => "Invalid control character at"
  | .escape => "Invalid \\escape"
  | .unicodeEscape => "Invalid \\uXXXX escape"
  | .noByteOrderMark => "Unexpected UTF-8 BOM (decode using utf-8-sig)"

/-- Why a text is not JSON: a violated expectation at a place, or an integer with too many digits. -/
inductive ReadFault
  | unexpected (expectation : Expectation) (line column offset : Nat)
  | digits (count : Nat)
  deriving DecidableEq

/-- Why a step of reading stops: an expectation that the rest of the text does not meet. -/
inductive Stop
  | unexpected (expectation : Expectation) (rest : List Char)
  | digits (count : Nat)

def fail {α : Type} (expectation : Expectation) (rest : List Char) : Except Stop α :=
  .error (.unexpected expectation rest)

private def isSpace (c : Char) : Bool :=
  c = ' ' || c = '\t' || c = '\n' || c = '\r'

private def skipSpace (text : List Char) : List Char :=
  text.dropWhile isSpace

def hexUnit? (text : List Char) : Option Nat :=
  if 4 ≤ text.length then
    ((text.take 4).mapM (Text.asciiDigit? 16)).map (Text.ofDigits 16)
  else none

def simpleEscape? (c : Char) : Option Char :=
  if c = '"' || c = '\\' || c = '/' then some c
  else if c = 'b' then some '\x08'
  else if c = 'f' then some '\x0c'
  else if c = 'n' then some '\n'
  else if c = 'r' then some '\r'
  else if c = 't' then some '\t'
  else none

/-- The second half of a surrogate pair, after whose escape more text has to follow. -/
def lowSurrogate? (text : List Char) : Except Unit (Option Nat) :=
  match text with
  | '\\' :: 'u' :: rest =>
      if 4 < rest.length then
        match hexUnit? rest with
        | none => .error ()
        | some n => .ok (if 0xDC00 ≤ n && n ≤ 0xDFFF then some n else none)
      else .ok none
  | _ => .ok none

/-- The rest of a quoted text. `opening` is the text from its first quote on. -/
def readQuoted (opening : List Char) : Nat → List Char → List Char → Except Stop (String × List Char)
  | 0, _, _ => fail .closingQuote opening
  | fuel + 1, done, text =>
      match text with
      | [] => fail .closingQuote opening
      | '"' :: rest => .ok (String.ofList done.reverse, rest)
      | ['\\'] => fail .closingQuote opening
      | '\\' :: 'u' :: rest =>
          -- The closing quote has to follow the digits, so four digits alone are too short.
          match if 4 < rest.length then hexUnit? rest else none with
          | none => fail .unicodeEscape ('u' :: rest)
          | some high =>
              let after := rest.drop 4
              if 0xD800 ≤ high && high ≤ 0xDBFF then
                match lowSurrogate? after with
                | .error () => fail .unicodeEscape (after.drop 1)
                | .ok (some low) =>
                    let c := Char.ofNat (0x10000 + (high - 0xD800) * 0x400 + (low - 0xDC00))
                    readQuoted opening fuel (c :: done) (after.drop 6)
                | .ok none => readQuoted opening fuel ('\ufffd' :: done) after
              else if 0xDC00 ≤ high && high ≤ 0xDFFF then
                readQuoted opening fuel ('\ufffd' :: done) after
              else readQuoted opening fuel (Char.ofNat high :: done) after
      | '\\' :: c :: rest =>
          match simpleEscape? c with
          | some plain => readQuoted opening fuel (plain :: done) rest
          | none => fail .escape text
      | c :: rest =>
          if c.toNat < 0x20 then fail .printable text
          else readQuoted opening fuel (c :: done) rest

/-- The fraction of a number: a point with at least one digit after it. -/
private def fraction (text : List Char) : List Char × List Char :=
  match text with
  | '.' :: d :: rest =>
      if d.isDigit then
        ('.' :: d :: rest.takeWhile Char.isDigit, rest.dropWhile Char.isDigit)
      else ([], text)
  | _ => ([], text)

private def exponent (text : List Char) : List Char × List Char :=
  match text with
  | e :: rest =>
      if e = 'e' || e = 'E' then
        let (sign, digits) :=
          match rest with
          | '+' :: digits => (['+'], digits)
          | '-' :: digits => (['-'], digits)
          | digits => ([], digits)
        let run := digits.takeWhile Char.isDigit
        if run.isEmpty then ([], text) else (e :: sign ++ run, digits.dropWhile Char.isDigit)
      else ([], text)
  | [] => ([], text)

/-- A number at the start of a text: sign, digits without a leading zero, fraction, exponent. -/
def readNumber (text : List Char) : Except Stop (Value × List Char) :=
  let (sign, body) :=
    match text with
    | '-' :: rest => (['-'], rest)
    | rest => ([], rest)
  let (whole, rest) :=
    match body with
    | '0' :: rest => (['0'], rest)
    | rest => (rest.takeWhile Char.isDigit, rest.dropWhile Char.isDigit)
  if whole.isEmpty then fail .value text
  else
    let (fraction, rest) := fraction rest
    let (exponent, rest) := exponent rest
    if fraction.isEmpty && exponent.isEmpty then
      if Text.digitLimit < whole.length then .error (.digits whole.length)
      else
        let n : Int := Text.ofDigits 10 (whole.filterMap Text.digit?)
        .ok (.int (if sign.isEmpty then n else -n), rest)
    else
      match Binary64.ofText? (sign ++ whole ++ fraction ++ exponent) with
      | some x => .ok (.scalar (.float x), rest)
      | none => fail .value text

def words : List (String × Value) :=
  [("null", .null), ("true", .bool true), ("false", .bool false),
    ("NaN", .scalar (.float .nan)), ("Infinity", .scalar (.float (.infinity false))),
    ("-Infinity", .scalar (.float (.infinity true)))]

def readWord? (text : List Char) : Option (Value × List Char) :=
  words.findSome? fun (word, value) =>
    (Text.after? word.toList text).map fun rest => (value, rest)

mutual
def readValue : Nat → List Char → Except Stop (Value × List Char)
  | 0, text => fail .value text
  | fuel + 1, text =>
      match text with
      | '"' :: rest => do
          let (s, rest) ← readQuoted text (rest.length + 1) [] rest
          return (.text s, rest)
      | '\x7b' :: rest =>
          match skipSpace rest with
          | '\x7d' :: rest => .ok (.object [], rest)
          | rest => do
              let (members, rest) ← readMembers fuel rest
              return (.object (Members.ofList members), rest)
      | '[' :: rest =>
          match skipSpace rest with
          | ']' :: rest => .ok (.list [], rest)
          | rest => do
              let (items, rest) ← readItems fuel rest
              return (.list items, rest)
      | _ =>
          match readWord? text with
          | some result => .ok result
          | none => readNumber text

def readMembers : Nat → List Char → Except Stop (List (Scalar × Value) × List Char)
  | 0, text => fail .memberName text
  | fuel + 1, text =>
      match text with
      | '"' :: rest => do
          let (name, rest) ← readQuoted text (rest.length + 1) [] rest
          match skipSpace rest with
          | ':' :: rest =>
              let (value, rest) ← readValue fuel (skipSpace rest)
              match skipSpace rest with
              | '\x7d' :: rest => return ([(.text name, value)], rest)
              | ',' :: rest =>
                  let (members, rest) ← readMembers fuel (skipSpace rest)
                  return ((.text name, value) :: members, rest)
              | rest => fail .comma rest
          | rest => fail .colon rest
      | _ => fail .memberName text

def readItems : Nat → List Char → Except Stop (List Value × List Char)
  | 0, text => fail .value text
  | fuel + 1, text => do
      let (item, rest) ← readValue fuel text
      match skipSpace rest with
      | ']' :: rest => return ([item], rest)
      | ',' :: rest =>
          let (items, rest) ← readItems fuel (skipSpace rest)
          return (item :: items, rest)
      | rest => fail .comma rest
end

/-- The fault at a place in a text, with its line and column, both counted from one. -/
private def faultAt (text : List Char) (expectation : Expectation) (rest : List Char) : ReadFault :=
  let before := text.take (text.length - rest.length)
  .unexpected expectation (before.count '\n' + 1)
    ((before.reverse.takeWhile (· ≠ '\n')).length + 1) before.length

def read (text : String) : Except ReadFault Value :=
  let chars := text.toList
  let result : Except Stop (Value × List Char) :=
    match chars with
    | '\ufeff' :: _ => fail .noByteOrderMark chars
    | _ => readValue (chars.length + 1) (skipSpace chars)
  match result with
  | .ok (value, rest) =>
      match skipSpace rest with
      | [] => .ok value
      | rest => .error (faultAt chars .endOfText rest)
  | .error (.unexpected expectation rest) => .error (faultAt chars expectation rest)
  | .error (.digits count) => .error (.digits count)

namespace ReadFault

def message : ReadFault → String
  | .unexpected expectation line column offset =>
      expectation.message ++ ": line " ++ toString line ++ " column " ++ toString column ++
        " (char " ++ toString offset ++ ")"
  | .digits count =>
      "Exceeds the limit (4300 digits) for integer string conversion: value has " ++
        toString count ++
        " digits; use sys.set_int_max_str_digits() to increase the limit"

end ReadFault

end ApiCompiler.Json
