import ApiCompiler.Yaml.Marks
import ApiCompiler.Yaml.ScalarText

/-!
The tokens of a text. Indentation opens and closes blocks. That something is the key of a mapping
shows only at the colon after it, so every place where a simple key may start is remembered until the
line ends.
-/

namespace ApiCompiler.Yaml

/-- A place where a simple key may have started, and the number of tokens before it. -/
structure SimpleKey where
  tokenIndex : Nat
  isRequired : Bool
  index : Nat
  line : Nat
  column : Nat

/-- How far a text is read: the open brackets and blocks, and the tokens so far. -/
structure Lexer where
  cursor : Cursor
  depth : Nat := 0
  indent : Int := -1
  outerIndents : List Int := []
  allowsKey : Bool := true
  keys : List (Nat × SimpleKey) := []
  tokens : Array Token := #[]

abbrev Lexing (α : Type) := StateT Lexer (Except Fault) α

namespace Lexer

def malformed {α : Type} : Lexing α :=
  throw .malformed

def emit (token : Token) : Lexing Unit :=
  modify fun lexer => { lexer with tokens := lexer.tokens.push token }

def moveTo (cursor : Cursor) : Lexing Unit :=
  modify fun lexer => { lexer with cursor }

def allowKey (allowsKey : Bool) : Lexing Unit :=
  modify fun lexer => { lexer with allowsKey }

private def skipFrom : Nat → Lexer → Lexer
  | 0, lexer => lexer
  | fuel + 1, lexer =>
      let cursor := lexer.cursor.skipSpaces.skipComment
      match cursor.lineBreak? with
      | none => { lexer with cursor }
      | some (_, next) =>
          skipFrom fuel
            { lexer with cursor := next, allowsKey := lexer.allowsKey || lexer.depth = 0 }

/-- Skips spaces, comments and line ends; a key may start on a new line. -/
def skipToToken : Lexing Unit :=
  modify fun lexer =>
    let cursor := lexer.cursor
    let start :=
      if cursor.index = 0 && cursor.peek = some byteOrderMark then cursor.step else cursor
    skipFrom (start.rest.length + 1) { lexer with cursor := start }

def keyLimit : Nat := 1024

/-- Gives up the places where a key started on an earlier line or too far back. -/
def dropStaleKeys : Lexing Unit := do
  let lexer ← get
  let isStale (key : SimpleKey) : Bool :=
    key.line ≠ lexer.cursor.line || keyLimit < lexer.cursor.index - key.index
  if lexer.keys.any fun (_, key) => isStale key && key.isRequired then malformed
  set { lexer with keys := lexer.keys.filter fun (_, key) => !isStale key }

private def closedBlocks (column : Int) : Int → List Int → Array Token → Int × List Int × Array Token
  | indent, [], tokens => (indent, [], tokens)
  | indent, outer :: rest, tokens =>
      if column < indent then closedBlocks column outer rest (tokens.push .blockEnd)
      else (indent, outer :: rest, tokens)

/-- Closes the blocks that are indented further than a column. -/
def closeBlocks (column : Int) : Lexing Unit :=
  modify fun lexer =>
    if lexer.depth ≠ 0 then lexer
    else
      let (indent, outerIndents, tokens) :=
        closedBlocks column lexer.indent lexer.outerIndents lexer.tokens
      { lexer with indent, outerIndents, tokens }

/-- Opens a block at a column unless one is open there; tells whether it did. -/
def openBlock (column : Nat) : Lexing Bool := do
  let lexer ← get
  if lexer.indent < column then
    set { lexer with indent := (column : Int), outerIndents := lexer.indent :: lexer.outerIndents }
    return true
  else return false

/-- Gives up the place where a key started at this depth. -/
def dropKey : Lexing Unit := do
  let lexer ← get
  match lexer.keys.lookup lexer.depth with
  | some key =>
      if key.isRequired then malformed
      set { lexer with keys := lexer.keys.filter fun (depth, _) => depth ≠ lexer.depth }
  | none => return

def rememberKey : Lexing Unit := do
  if (← get).allowsKey then
    dropKey
    modify fun lexer =>
      let cursor := lexer.cursor
      let key : SimpleKey :=
        { tokenIndex := lexer.tokens.size
          isRequired := lexer.depth = 0 && lexer.indent = cursor.column
          index := cursor.index
          line := cursor.line
          column := cursor.column }
      { lexer with keys := (lexer.depth, key) :: lexer.keys }

private def readEnd : Lexing Unit := do
  closeBlocks (-1)
  dropKey

private def readDirective : Lexing Unit := do
  closeBlocks (-1)
  dropKey
  allowKey false
  let (token, cursor) ← liftM (directive (← get).cursor)
  moveTo cursor
  emit token

private def readDocumentMark (token : Token) : Lexing Unit := do
  closeBlocks (-1)
  dropKey
  allowKey false
  moveTo (Cursor.move 3 (← get).cursor)
  emit token

private def stepOver (token : Token) : Lexing Unit := do
  moveTo (← get).cursor.step
  emit token

private def readOpening (token : Token) : Lexing Unit := do
  rememberKey
  allowKey true
  modify fun lexer => { lexer with depth := lexer.depth + 1 }
  stepOver token

private def readClosing (token : Token) : Lexing Unit := do
  if (← get).depth = 0 then malformed
  dropKey
  allowKey false
  modify fun lexer => { lexer with depth := lexer.depth - 1 }
  stepOver token

private def readComma : Lexing Unit := do
  allowKey true
  dropKey
  stepOver .comma

/-- Opens a block where a key may start; elsewhere outside of brackets nothing may be opened. -/
private def openBlockHere (token : Token) : Lexing Unit := do
  let lexer ← get
  if lexer.depth = 0 then
    if !lexer.allowsKey then malformed
    if ← openBlock lexer.cursor.column then emit token

private def readDash : Lexing Unit := do
  openBlockHere .sequenceStart
  allowKey true
  dropKey
  stepOver .dash

private def readKey : Lexing Unit := do
  openBlockHere .mappingStart
  allowKey ((← get).depth = 0)
  dropKey
  stepOver .key

private def insertBefore (index : Nat) (token : Token) : Lexing Unit :=
  modify fun lexer => { lexer with tokens := lexer.tokens.insertIdxIfInBounds index token }

private def readValue : Lexing Unit := do
  let lexer ← get
  match lexer.keys.lookup lexer.depth with
  | some key =>
      set { lexer with keys := lexer.keys.filter fun (depth, _) => depth ≠ lexer.depth }
      insertBefore key.tokenIndex .key
      if lexer.depth = 0 then
        if ← openBlock key.column then insertBefore key.tokenIndex .mappingStart
      allowKey false
  | none =>
      openBlockHere .mappingStart
      allowKey (lexer.depth = 0)
      dropKey
  stepOver .value

private def readNamed (token : String → Token) : Lexing Unit := do
  rememberKey
  allowKey false
  let (name, cursor) ← liftM (anchorName (← get).cursor.step)
  moveTo cursor
  emit (token name)

private def readTag : Lexing Unit := do
  rememberKey
  allowKey false
  let (tag, cursor) ← liftM (tagText (← get).cursor)
  moveTo cursor
  emit (.tag tag)

private def readBlock (isFolded : Bool) : Lexing Unit := do
  allowKey true
  dropKey
  let lexer ← get
  let (text, cursor) ← liftM (blockText isFolded lexer.indent lexer.cursor)
  moveTo cursor
  emit (.scalar (String.ofList text) false)

private def readQuoted (quote : Char) : Lexing Unit := do
  rememberKey
  allowKey false
  let (text, cursor) ← liftM (quotedText quote (← get).cursor)
  moveTo cursor
  emit (.scalar (String.ofList text) false)

private def readPlain : Lexing Unit := do
  rememberKey
  let lexer ← get
  let plain := plainText (lexer.depth ≠ 0) lexer.indent lexer.cursor
  allowKey plain.endsLine
  moveTo plain.cursor
  emit (.scalar (String.ofList plain.text) true)

private def indicators : List Char :=
  "-?:,[]\x7b\x7d#&*!|>'\"%@\x60".toList

private def startsPlain (lexer : Lexer) (c : Char) : Bool :=
  !endsIndicator (some c) &&
    (!indicators.contains c ||
      (!endsIndicator (lexer.cursor.peekAt 1) &&
        (c = '-' || (lexer.depth = 0 && (c = '?' || c = ':')))))

private def readAt (c : Char) : Lexing Unit := do
  let lexer ← get
  let cursor := lexer.cursor
  let isFlow := lexer.depth ≠ 0
  let isAlone := endsIndicator (cursor.peekAt 1)
  if c = '%' && cursor.column = 0 then readDirective
  else if cursor.column = 0 && cursor.startsMark '-' then readDocumentMark .documentStart
  else if cursor.column = 0 && cursor.startsMark '.' then readDocumentMark .documentEnd
  else if c = '[' then readOpening .openBracket
  else if c = '\x7b' then readOpening .openBrace
  else if c = ']' then readClosing .closeBracket
  else if c = '\x7d' then readClosing .closeBrace
  else if c = ',' then readComma
  else if c = '-' && isAlone then readDash
  else if c = '?' && (isFlow || isAlone) then readKey
  else if c = ':' && (isFlow || isAlone) then readValue
  else if c = '*' then readNamed .alias
  else if c = '&' then readNamed .anchor
  else if c = '!' then readTag
  else if c = '|' && !isFlow then readBlock false
  else if c = '>' && !isFlow then readBlock true
  else if c = '\'' || c = '"' then readQuoted c
  else if startsPlain lexer c then readPlain
  else malformed

/-- Every token takes at least one character, so there are no more of them than characters. -/
private def readAll : Nat → Lexing Unit
  | 0 => readEnd
  | fuel + 1 => do
      skipToToken
      dropStaleKeys
      closeBlocks (← get).cursor.column
      match (← get).cursor.peek with
      | none => readEnd
      | some c => do
          readAt c
          readAll fuel

end Lexer

def Token.ofText (text : String) : Except Fault (List Token) :=
  let chars := text.toList
  if !chars.all isPrintable then .error .malformed
  else
    match (Lexer.readAll (chars.length + 1)).run { cursor := { rest := chars } } with
    | .ok (_, lexer) => .ok lexer.tokens.toList
    | .error fault => .error fault

end ApiCompiler.Yaml
