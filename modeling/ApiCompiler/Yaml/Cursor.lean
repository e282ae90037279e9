import ApiCompiler.Text.Segments
import ApiCompiler.Yaml.Fault

/-!
A place in a YAML text: what follows, and the line and column it stands at.
-/

namespace ApiCompiler.Yaml

/-- Characters that may not stand in a text at all. -/
def isPrintable (c : Char) : Bool :=
  let n := c.toNat
  n = 0x09 || n = 0x0A || n = 0x0D || (0x20 ≤ n && n ≤ 0x7E) || n = 0x85 ||
    (0xA0 ≤ n && n ≤ 0xFFFD) || 0x10000 ≤ n

/-- The mark of byte order, which may stand anywhere and takes no column. -/
def byteOrderMark : Char := '\ufeff'

def isBreak (c : Char) : Bool :=
  c = '\n' || c = '\r' || c = '\u0085' || c = '\u2028' || c = '\u2029'

/-- A space, a line break, or the end of the text. -/
def endsWord : Option Char → Bool
  | none => true
  | some c => c = ' ' || isBreak c

/-- A space, a tab, a line break, or the end of the text. -/
def endsIndicator : Option Char → Bool
  | some '\t' => true
  | c => endsWord c

structure Cursor where
  rest : List Char
  index : Nat := 0
  line : Nat := 0
  column : Nat := 0

namespace Cursor

def peek (cursor : Cursor) : Option Char := cursor.rest.head?

def peekAt (cursor : Cursor) (n : Nat) : Option Char := cursor.rest[n]?

def step (cursor : Cursor) : Cursor :=
  match cursor.rest with
  | [] => cursor
  | c :: rest =>
      if isBreak c && !(c = '\r' && rest.head? = some '\n') then
        { rest, index := cursor.index + 1, line := cursor.line + 1, column := 0 }
      else
        { rest, index := cursor.index + 1, line := cursor.line
          column := if c = byteOrderMark then cursor.column else cursor.column + 1 }

def move : Nat → Cursor → Cursor
  | 0, cursor => cursor
  | n + 1, cursor => move n cursor.step

/-- The characters that pass a test from here on. -/
def run (p : Char → Bool) (cursor : Cursor) : List Char :=
  cursor.rest.takeWhile p

def skip (p : Char → Bool) (cursor : Cursor) : Cursor :=
  move (cursor.run p).length cursor

def skipSpaces (cursor : Cursor) : Cursor :=
  cursor.skip (· = ' ')

/-- The place after the last character of the line. -/
def skipLine (cursor : Cursor) : Cursor :=
  cursor.skip fun c => !isBreak c

/-- The place after a comment, if one starts here. -/
def skipComment (cursor : Cursor) : Cursor :=
  if cursor.peek = some '#' then cursor.skipLine else cursor

/-- The line break that starts here, in its one form, and the place after it. -/
def lineBreak? (cursor : Cursor) : Option (Char × Cursor) :=
  match cursor.rest with
  | '\r' :: '\n' :: _ => some ('\n', move 2 cursor)
  | c :: _ =>
      if c = '\u2028' || c = '\u2029' then some (c, cursor.step)
      else if isBreak c then some ('\n', cursor.step)
      else none
  | [] => none

/-- A mark of three equal characters, set apart from what follows. -/
def startsMark (mark : Char) (cursor : Cursor) : Bool :=
  cursor.rest.take 3 = [mark, mark, mark] && endsIndicator (cursor.peekAt 3)

def startsDocumentMark (cursor : Cursor) : Bool :=
  cursor.startsMark '-' || cursor.startsMark '.'

end Cursor

end ApiCompiler.Yaml
