/-!
Blank characters, line breaks, and the trimming and line splitting built on them. Both classes
are those of Unicode white space, where the information separators U+001C to U+001F count as blank.
-/

namespace ApiCompiler.Text

def isBlank (c : Char) : Bool :=
  let n := c.toNat
  (0x09 ≤ n && n ≤ 0x0D) || (0x1C ≤ n && n ≤ 0x20) || n == 0x85 || n == 0xA0 || n == 0x1680 ||
    (0x2000 ≤ n && n ≤ 0x200A) || n == 0x2028 || n == 0x2029 || n == 0x202F || n == 0x205F ||
    n == 0x3000

/-- Characters that end a line. A carriage return and a line feed right after it end one line. -/
def isLineBreak (c : Char) : Bool :=
  let n := c.toNat
  (0x0A ≤ n && n ≤ 0x0D) || (0x1C ≤ n && n ≤ 0x1E) || n == 0x85 || n == 0x2028 || n == 0x2029

def trimLeft (text : List Char) : List Char :=
  text.dropWhile isBlank

def trimRight (text : List Char) : List Char :=
  (text.reverse.dropWhile isBlank).reverse

def trim (text : List Char) : List Char :=
  trimRight (trimLeft text)

def linesFrom : List Char → List Char → List (List Char)
  | [], [] => []
  | [], line => [line.reverse]
  | '\r' :: '\n' :: rest, line => line.reverse :: linesFrom rest []
  | c :: rest, line =>
      if isLineBreak c then line.reverse :: linesFrom rest []
      else linesFrom rest (c :: line)

/-- The lines of a text without their breaks; a break at the end starts no further line. -/
def lines (text : List Char) : List (List Char) :=
  linesFrom text []

end ApiCompiler.Text

namespace String

def trimBlanks (text : String) : String :=
  String.ofList (ApiCompiler.Text.trim text.toList)

def trimBlanksRight (text : String) : String :=
  String.ofList (ApiCompiler.Text.trimRight text.toList)

end String
