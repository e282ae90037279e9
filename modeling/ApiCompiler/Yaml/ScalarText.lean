import ApiCompiler.Text.Digits
import ApiCompiler.Yaml.Cursor

/-!
The texts of scalars: plain, in quotes, and in blocks. A single line break within a text stands for a
space, further ones for themselves.
-/

namespace ApiCompiler.Yaml

/-- What a line break and the breaks right after it stand for within a text. -/
def foldBreaks (first : Char) (further : List Char) : List Char :=
  if first ≠ '\n' then first :: further
  else if further.isEmpty then [' ']
  else further

/-! Plain texts. -/

/-- The characters of a plain text up to a blank or an indicator that ends it. -/
def plainRun (inFlow : Bool) : List Char → List Char
  | [] => []
  | c :: rest =>
      let isFlowIndicator (c : Char) : Bool := [',', '[', ']', '\x7b', '\x7d'].contains c
      let next := rest.head?
      let endsAtColon :=
        c = ':' && (endsIndicator next || (inFlow && (next.map isFlowIndicator).getD false))
      if c = '\t' || endsWord (some c) || endsAtColon ||
          (inFlow && (c = '?' || isFlowIndicator c)) then []
      else c :: plainRun inFlow rest

/-- The breaks and leading spaces before the next line with content; none before a document mark. -/
private def plainBreaks : Nat → Cursor → List Char → Option (List Char) × Cursor
  | 0, cursor, breaks => (some breaks, cursor)
  | fuel + 1, cursor, breaks =>
      if cursor.peek = some ' ' then plainBreaks fuel cursor.step breaks
      else
        match cursor.lineBreak? with
        | none => (some breaks, cursor)
        | some (c, next) =>
            if next.startsDocumentMark then (none, next)
            else plainBreaks fuel next (breaks ++ [c])

/-- What stands between two parts of a plain text, and whether it goes over the end of a line. -/
def plainGap (cursor : Cursor) : List Char × Bool × Cursor :=
  let spaces := cursor.run (· = ' ')
  let cursor := cursor.skipSpaces
  match cursor.lineBreak? with
  | none => (spaces, false, cursor)
  | some (c, next) =>
      if next.startsDocumentMark then ([], true, next)
      else
        match plainBreaks (next.rest.length + 1) next [] with
        | (none, next) => ([], true, next)
        | (some breaks, next) => (foldBreaks c breaks, true, next)

structure PlainText where
  text : List Char
  /-- Whether the text is followed by the start of a line. -/
  endsLine : Bool
  cursor : Cursor

private def plainFrom (inFlow : Bool) (indent : Int) :
    Nat → List Char → List Char → Bool → Cursor → PlainText
  | 0, done, _, endsLine, cursor => ⟨done, endsLine, cursor⟩
  | fuel + 1, done, gap, endsLine, cursor =>
      let run := plainRun inFlow cursor.rest
      if cursor.peek = some '#' || run.isEmpty then ⟨done, endsLine, cursor⟩
      else
        let done := done ++ gap ++ run
        let (gap, endsLine, cursor) := plainGap (Cursor.move run.length cursor)
        if gap.isEmpty || cursor.peek = some '#' || (!inFlow && (cursor.column : Int) ≤ indent) then
          ⟨done, endsLine, cursor⟩
        else plainFrom inFlow indent fuel done gap endsLine cursor

/-- The plain text that starts here; outside of brackets it ends where a line is not indented. -/
def plainText (inFlow : Bool) (indent : Int) (cursor : Cursor) : PlainText :=
  plainFrom inFlow indent (cursor.rest.length + 1) [] [] false cursor

/-! Quoted texts. -/

private def simpleEscapes : List (Char × Char) :=
  [('0', '\x00'), ('a', '\x07'), ('b', '\x08'), ('t', '\t'), ('\t', '\t'), ('n', '\n'),
    ('v', '\x0b'), ('f', '\x0c'), ('r', '\r'), ('e', '\x1b'), (' ', ' '), ('"', '"'),
    ('\\', '\\'), ('/', '/'), ('N', '\u0085'), ('_', '\u00a0'), ('L', '\u2028'), ('P', '\u2029')]

private def codeLength? (c : Char) : Option Nat :=
  [('x', 2), ('u', 4), ('U', 8)].lookup c

private def isTabOrSpace (c : Char) : Bool :=
  c = ' ' || c = '\t'

/-- The breaks up to the next character of a quoted text; a document mark may not come between. -/
private def quotedBreaks : Nat → Cursor → List Char → Except Fault (List Char × Cursor)
  | 0, cursor, breaks => .ok (breaks, cursor)
  | fuel + 1, cursor, breaks =>
      if cursor.startsDocumentMark then .error .malformed
      else
        let cursor := cursor.skip isTabOrSpace
        match cursor.lineBreak? with
        | none => .ok (breaks, cursor)
        | some (c, next) => quotedBreaks fuel next (breaks ++ [c])

/-- What blanks and line breaks within quotes stand for. -/
private def quotedGap (cursor : Cursor) : Except Fault (List Char × Cursor) :=
  let blanks := cursor.run isTabOrSpace
  let cursor := cursor.skip isTabOrSpace
  match cursor.peek, cursor.lineBreak? with
  | none, _ => .error .malformed
  | some _, none => .ok (blanks, cursor)
  | some _, some (c, next) => do
      let (breaks, next) ← quotedBreaks (next.rest.length + 1) next []
      return (foldBreaks c breaks, next)

/-- What an escape stands for, from the character after the backslash on. -/
private def escaped (cursor : Cursor) : Except Fault (List Char × Cursor) :=
  match cursor.peek with
  | none => .error .malformed
  | some c =>
      match simpleEscapes.lookup c, codeLength? c, cursor.lineBreak? with
      | some plain, _, _ => .ok ([plain], cursor.step)
      | none, some count, _ =>
          let digits := (cursor.step.rest.take count).filterMap (Text.asciiDigit? 16)
          let code := Text.ofDigits 16 digits
          if digits.length < count then .error .malformed
          else if 0x10FFFF < code then .error .character
          else
            let c := if 0xD800 ≤ code && code ≤ 0xDFFF then '\ufffd' else Char.ofNat code
            .ok ([c], Cursor.move (count + 1) cursor)
      | none, none, some (_, next) => quotedBreaks (next.rest.length + 1) next []
      | none, none, none => .error .malformed

private def quotedFrom (quote : Char) : Nat → List Char → Cursor → Except Fault (List Char × Cursor)
  | 0, _, _ => .error .malformed
  | fuel + 1, done, cursor =>
      match cursor.rest with
      | [] => .error .malformed
      | c :: rest =>
          if isTabOrSpace c || isBreak c then do
            let (gap, cursor) ← quotedGap cursor
            quotedFrom quote fuel (gap.reverse ++ done) cursor
          else if c = quote then
            if quote = '\'' && rest.head? = some '\'' then
              quotedFrom quote fuel ('\'' :: done) (Cursor.move 2 cursor)
            else .ok (done.reverse, cursor.step)
          else if quote = '"' && c = '\\' then do
            let (part, cursor) ← escaped cursor.step
            quotedFrom quote fuel (part.reverse ++ done) cursor
          else quotedFrom quote fuel (c :: done) cursor.step

def quotedText (quote : Char) (cursor : Cursor) : Except Fault (List Char × Cursor) :=
  quotedFrom quote (cursor.rest.length + 1) [] cursor.step

/-! Texts in blocks. -/

/-- What is done with the line breaks at the end of a block. -/
inductive Chomping
  | strip
  | clip
  | keep
  deriving DecidableEq

private def chomping? : Option Char → Option Chomping
  | some '+' => some .keep
  | some '-' => some .strip
  | _ => none

/-- An indentation in one digit, which may not be zero. -/
private def increment? (cursor : Cursor) : Except Fault (Option Nat × Cursor) :=
  match cursor.peek.bind (Text.asciiDigit? 10) with
  | none => .ok (none, cursor)
  | some 0 => .error .malformed
  | some n => .ok (some n, cursor.step)

/-- The indicators after the one that opens a block, in either order. -/
private def blockHeader (cursor : Cursor) : Except Fault (Chomping × Option Nat × Cursor) := do
  let (chomping, increment, cursor) ←
    match chomping? cursor.peek with
    | some chomping => do
        let (increment, cursor) ← increment? cursor.step
        pure (chomping, increment, cursor)
    | none => do
        let (increment, cursor) ← increment? cursor
        match increment, chomping? cursor.peek with
        | some _, some chomping => pure (chomping, increment, cursor.step)
        | _, _ => pure (Chomping.clip, increment, cursor)
  if !endsWord cursor.peek then .error .malformed
  else
    let cursor := cursor.skipSpaces.skipComment
    match cursor.peek, cursor.lineBreak? with
    | none, _ => .ok (chomping, increment, cursor)
    | some _, some (_, next) => .ok (chomping, increment, next)
    | some _, none => .error .malformed

/-- The breaks before the first line of a block, and the widest indentation met there. -/
private def blockIndentation : Nat → Cursor → List Char → Nat → List Char × Nat × Cursor
  | 0, cursor, breaks, widest => (breaks, widest, cursor)
  | fuel + 1, cursor, breaks, widest =>
      if cursor.peek = some ' ' then
        let cursor := cursor.step
        blockIndentation fuel cursor breaks (max widest cursor.column)
      else
        match cursor.lineBreak? with
        | none => (breaks, widest, cursor)
        | some (c, next) => blockIndentation fuel next (breaks ++ [c]) widest

private def skipIndentation (indent : Nat) (cursor : Cursor) : Cursor :=
  Cursor.move (min (cursor.run (· = ' ')).length (indent - cursor.column)) cursor

/-- The breaks of empty lines, up to the indentation of the next line. -/
private def blockBreaks (indent : Nat) : Nat → Cursor → List Char → List Char × Cursor
  | 0, cursor, breaks => (breaks, cursor)
  | fuel + 1, cursor, breaks =>
      let cursor := skipIndentation indent cursor
      match cursor.lineBreak? with
      | none => (breaks, cursor)
      | some (c, next) => blockBreaks indent fuel next (breaks ++ [c])

private def isSpacedLine (cursor : Cursor) : Bool :=
  (cursor.peek.map isTabOrSpace).getD false

/-- The lines of a block: its text, its last line break, and the breaks after that. -/
private def blockLines (isFolded : Bool) (indent : Nat) :
    Nat → List Char → List Char → Cursor → List Char × List Char × List Char × Cursor
  | 0, done, breaks, cursor => (done, [], breaks, cursor)
  | fuel + 1, done, breaks, cursor =>
      let startsSpaced := isSpacedLine cursor
      let done := done ++ breaks ++ cursor.run fun c => !isBreak c
      let cursor := cursor.skipLine
      let (last, cursor) :=
        match cursor.lineBreak? with
        | none => ([], cursor)
        | some (c, next) => ([c], next)
      let (breaks, cursor) := blockBreaks indent (cursor.rest.length + 1) cursor []
      if cursor.column = indent && cursor.peek.isSome then
        let isFold := isFolded && last = ['\n'] && !startsSpaced && !isSpacedLine cursor
        let joint := if !isFold then last else if breaks.isEmpty then [' '] else []
        blockLines isFolded indent fuel (done ++ joint) breaks cursor
      else (done, last, breaks, cursor)

/-- The text of the block that opens here, below an indentation. -/
def blockText (isFolded : Bool) (indent : Int) (cursor : Cursor) :
    Except Fault (List Char × Cursor) := do
  let (chomping, increment, cursor) ← blockHeader cursor.step
  let least := (max (indent + 1) 1).toNat
  let (breaks, width, cursor) :=
    match increment with
    | none =>
        let (breaks, widest, cursor) := blockIndentation (cursor.rest.length + 1) cursor [] 0
        (breaks, max least widest, cursor)
    | some n =>
        let width := least + n - 1
        let (breaks, cursor) := blockBreaks width (cursor.rest.length + 1) cursor []
        (breaks, width, cursor)
  let (done, last, breaks, cursor) :=
    if cursor.column = width && cursor.peek.isSome then
      blockLines isFolded width (cursor.rest.length + 1) [] breaks cursor
    else ([], [], breaks, cursor)
  let ending :=
    match chomping with
    | .strip => []
    | .clip => last
    | .keep => last ++ breaks
  return (done ++ ending, cursor)

end ApiCompiler.Yaml
