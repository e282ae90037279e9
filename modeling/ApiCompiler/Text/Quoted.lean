import ApiCompiler.Text.Printable

/-!
Quoted texts: double-quoted with the escapes of JSON, in full Unicode or in ASCII alone, and the
form with either quote that shows a text inside a list or an object.
-/

namespace ApiCompiler.Text

def hexDigit (n : Nat) : Char :=
  if n < 10 then Char.ofNat ('0'.toNat + n) else Char.ofNat ('a'.toNat + n - 10)

/-- A number in a fixed count of hexadecimal digits, high digits lost if they do not fit. -/
def hexDigits : (count n : Nat) → List Char
  | 0, _ => []
  | count + 1, n => hexDigits count (n / 16) ++ [hexDigit (n % 16)]

/-- The escapes of a code point by its units of sixteen bits. -/
def unitEscape (n : Nat) : List Char :=
  if n < 0x10000 then '\\' :: 'u' :: hexDigits 4 n
  else
    '\\' :: 'u' :: hexDigits 4 (0xD800 + (n - 0x10000) / 0x400) ++
      '\\' :: 'u' :: hexDigits 4 (0xDC00 + (n - 0x10000) % 0x400)

def shortEscape? (c : Char) : Option (List Char) :=
  if c = '"' then some ['\\', '"']
  else if c = '\\' then some ['\\', '\\']
  else if c = '\n' then some ['\\', 'n']
  else if c = '\r' then some ['\\', 'r']
  else if c = '\t' then some ['\\', 't']
  else if c.toNat = 0x0C then some ['\\', 'f']
  else if c.toNat = 0x08 then some ['\\', 'b']
  else none

/-- A character inside double quotes: control characters, the quote and the backslash are escaped. -/
def quoteChar (c : Char) : List Char :=
  match shortEscape? c with
  | some escape => escape
  | none => if c.toNat < 0x20 then unitEscape c.toNat else [c]

def quote (text : List Char) : List Char :=
  '"' :: text.flatMap quoteChar ++ ['"']

/-- A character inside double quotes where only printable ASCII stands for itself. -/
def quoteAsciiChar (c : Char) : List Char :=
  match shortEscape? c with
  | some escape => escape
  | none => if 0x20 ≤ c.toNat && c.toNat < 0x7F then [c] else unitEscape c.toNat

def quoteAscii (text : List Char) : List Char :=
  '"' :: text.flatMap quoteAsciiChar ++ ['"']

private def showChar (delimiter c : Char) : List Char :=
  if c = delimiter || c = '\\' then ['\\', c]
  else if c = '\n' then ['\\', 'n']
  else if c = '\r' then ['\\', 'r']
  else if c = '\t' then ['\\', 't']
  else if isPrintable c then [c]
  else if c.toNat < 0x100 then '\\' :: 'x' :: hexDigits 2 c.toNat
  else if c.toNat < 0x10000 then '\\' :: 'u' :: hexDigits 4 c.toNat
  else '\\' :: 'U' :: hexDigits 8 c.toNat

/--
A text as it is shown inside a list or an object: in single quotes, or in double quotes if it holds
single quotes and no double one.
-/
def showQuoted (text : List Char) : List Char :=
  let delimiter := if text.contains '\'' && !text.contains '"' then '"' else '\''
  delimiter :: text.flatMap (showChar delimiter) ++ [delimiter]

end ApiCompiler.Text

namespace String

def quoted (text : String) : String :=
  String.ofList (ApiCompiler.Text.quote text.toList)

def quotedAscii (text : String) : String :=
  String.ofList (ApiCompiler.Text.quoteAscii text.toList)

def shown (text : String) : String :=
  String.ofList (ApiCompiler.Text.showQuoted text.toList)

end String
