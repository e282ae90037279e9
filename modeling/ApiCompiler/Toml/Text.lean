import ApiCompiler.Text.Digits

/-!
The texts of TOML: keys, strings in one or several lines, and what may stand between values. A reader
takes the start of a text and gives back the rest. Lines end with a line feed alone.
-/

namespace ApiCompiler.Toml

/-- Why a text is not read: its form, or an integer with too many digits. -/
inductive Fault
  | malformed
  | digits (count : Nat)
  deriving DecidableEq

def malformed {α : Type} : Except Fault α :=
  .error .malformed

def isSpace (c : Char) : Bool :=
  c = ' ' || c = '\t'

def skipSpace (text : List Char) : List Char :=
  text.dropWhile isSpace

/-- Control characters have no place in a line, save for the tabulator. -/
def isForbidden (c : Char) : Bool :=
  (c.toNat < 0x20 && c ≠ '\t') || c.toNat = 0x7F

private def isForbiddenIn (multiline : Bool) (c : Char) : Bool :=
  isForbidden c && !(multiline && c = '\n')

def skipComment : List Char → Except Fault (List Char)
  | '#' :: text =>
      let comment := text.takeWhile (· ≠ '\n')
      if comment.any isForbidden then malformed else .ok (text.drop comment.length)
  | text => .ok text

def skipGap (inComment : Bool) : List Char → Except Fault (List Char)
  | [] => .ok []
  | c :: rest =>
      if c = '\n' then skipGap false rest
      else if inComment then if isForbidden c then malformed else skipGap true rest
      else if isSpace c then skipGap false rest
      else if c = '#' then skipGap true rest
      else .ok (c :: rest)

/-- A string up to its closing apostrophe, taken as it is. -/
def readLiteral : List Char → Except Fault (List Char × List Char)
  | [] => malformed
  | '\'' :: rest => .ok ([], rest)
  | c :: rest => do
      if isForbidden c then malformed
      let (text, rest) ← readLiteral rest
      return (c :: text, rest)

/-- At most two more marks after the three that close a string belong to the string. -/
private def extraMarks (mark : Char) (text : List Char) : List Char × List Char :=
  let marks := (text.takeWhile (· = mark)).take 2
  (marks, text.drop marks.length)

/-- A string of several lines up to its three closing apostrophes, taken as it is. -/
def readLiteralLines : List Char → Except Fault (List Char × List Char)
  | [] => malformed
  | '\'' :: '\'' :: '\'' :: rest => .ok (extraMarks '\'' rest)
  | c :: rest => do
      if isForbiddenIn true c then malformed
      let (text, rest) ← readLiteralLines rest
      return (c :: text, rest)

private def readCode (count : Nat) (text : List Char) : Except Fault (List Char × List Char) :=
  match if count ≤ text.length then (text.take count).mapM (Text.asciiDigit? 16) else none with
  | none => malformed
  | some digits =>
      let code := Text.ofDigits 16 digits
      if code.isValidChar then .ok ([Char.ofNat code], text.drop count) else malformed

private def escapes : List (Char × Char) :=
  [('b', '\x08'), ('t', '\t'), ('n', '\n'), ('f', '\x0c'), ('r', '\r'), ('"', '"'), ('\\', '\\')]

/-- What an escape stands for, from the character after its backslash on. -/
private def readEscape (multiline : Bool) : List Char → Except Fault (List Char × List Char)
  | [] => malformed
  | 'u' :: rest => readCode 4 rest
  | 'U' :: rest => readCode 8 rest
  | c :: rest =>
      if multiline && (isSpace c || c = '\n') then
        -- A backslash at the end of a line takes the blanks after it away.
        match skipSpace (c :: rest) with
        | '\n' :: rest => .ok ([], rest.dropWhile fun c => isSpace c || c = '\n')
        | _ => malformed
      else
        match escapes.lookup c with
        | some plain => .ok ([plain], rest)
        | none => malformed

private def readQuotedWithin (multiline : Bool) : Nat → List Char → Except Fault (List Char × List Char)
  | 0, _ => malformed
  | fuel + 1, text =>
      match text with
      | [] => malformed
      | '\\' :: rest => do
          let (plain, rest) ← readEscape multiline rest
          let (text, rest) ← readQuotedWithin multiline fuel rest
          return (plain ++ text, rest)
      | '"' :: rest =>
          match multiline, rest with
          | false, rest => .ok ([], rest)
          | true, '"' :: '"' :: rest => .ok (extraMarks '"' rest)
          | true, rest => do
              let (text, rest) ← readQuotedWithin multiline fuel rest
              return ('"' :: text, rest)
      | c :: rest => do
          if isForbiddenIn multiline c then malformed
          let (text, rest) ← readQuotedWithin multiline fuel rest
          return (c :: text, rest)

def readQuoted (multiline : Bool) (text : List Char) : Except Fault (List Char × List Char) :=
  readQuotedWithin multiline (text.length + 1) text

/-- A line feed right after the opening marks is not part of the string. -/
private def skipLineEnd : List Char → List Char
  | '\n' :: rest => rest
  | text => text

/-- A string of any kind, if the text starts with one. -/
def readString? (text : List Char) : Option (Except Fault (List Char × List Char)) :=
  match text with
  | '"' :: '"' :: '"' :: rest => some (readQuoted true (skipLineEnd rest))
  | '"' :: rest => some (readQuoted false rest)
  | '\'' :: '\'' :: '\'' :: rest => some (readLiteralLines (skipLineEnd rest))
  | '\'' :: rest => some (readLiteral rest)
  | _ => none

def isBareKeyChar (c : Char) : Bool :=
  c.isAlphanum || c = '-' || c = '_'

/-- One part of a key: bare, or a string in one line. -/
def readKeyPart (text : List Char) : Except Fault (String × List Char) := do
  match text with
  | '\'' :: rest =>
      let (name, rest) ← readLiteral rest
      return (String.ofList name, rest)
  | '"' :: rest =>
      let (name, rest) ← readQuoted false rest
      return (String.ofList name, rest)
  | text =>
      let name := text.takeWhile isBareKeyChar
      if name.isEmpty then malformed
      return (String.ofList name, text.drop name.length)

private def readKeyWithin : Nat → List Char → Except Fault (List String × List Char)
  | 0, _ => malformed
  | fuel + 1, text => do
      let (name, rest) ← readKeyPart text
      match skipSpace rest with
      | '.' :: rest =>
          let (names, rest) ← readKeyWithin fuel (skipSpace rest)
          return (name :: names, rest)
      | rest => return ([name], rest)

/-- A key, whose parts are joined by points, with the blanks after it. -/
def readKey (text : List Char) : Except Fault (List String × List Char) :=
  readKeyWithin (text.length + 1) text

end ApiCompiler.Toml
