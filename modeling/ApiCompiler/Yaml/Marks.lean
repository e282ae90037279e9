import ApiCompiler.Text.Utf8
import ApiCompiler.Yaml.Cursor
import ApiCompiler.Yaml.Token
import ApiCompiler.Text.Digits

/-!
Marks on nodes and documents: anchors and aliases, tags, and directives.
-/

namespace ApiCompiler.Yaml

def isNameChar (c : Char) : Bool :=
  c.isAlphanum || c = '-' || c = '_'

/-- The name of an anchor or alias, after its indicator. -/
def anchorName (cursor : Cursor) : Except Fault (String × Cursor) :=
  let name := cursor.run isNameChar
  let next := cursor.skip isNameChar
  let endsName (c : Char) : Bool := ['?', ':', ',', ']', '\x7d', '%', '@', '\x60'].contains c
  if name.isEmpty then .error .malformed
  else if endsIndicator next.peek || (next.peek.map endsName).getD false then
    .ok (String.ofList name, next)
  else .error .malformed

/-- A handle: an exclamation mark alone, or names and a mark after it. -/
def tagHandle (cursor : Cursor) : Except Fault (String × Cursor) :=
  match cursor.rest with
  | '!' :: ' ' :: _ => .ok ("!", cursor.step)
  | '!' :: rest =>
      let name := rest.takeWhile isNameChar
      if rest[name.length]? = some '!' then
        .ok (String.ofList ('!' :: name ++ ['!']), Cursor.move (name.length + 2) cursor)
      else .error .malformed
  | _ => .error .malformed

private def isAddressChar (c : Char) : Bool :=
  c.isAlphanum || "-;/?:@&=+$,_.!~*'()[]".toList.contains c

/-- The bytes of escapes that follow each other, each a percent sign and two digits. -/
private def escapedBytes : Nat → Cursor → Except Fault (List UInt8 × Cursor)
  | 0, cursor => .ok ([], cursor)
  | fuel + 1, cursor =>
      match cursor.rest with
      | '%' :: a :: b :: _ =>
          match Text.asciiDigit? 16 a, Text.asciiDigit? 16 b with
          | some x, some y => do
              let (bytes, next) ← escapedBytes fuel (Cursor.move 3 cursor)
              return (UInt8.ofNat (16 * x + y) :: bytes, next)
          | _, _ => .error .malformed
      | '%' :: _ => .error .malformed
      | _ => .ok ([], cursor)

private def addressFrom : Nat → List Char → Cursor → Except Fault (List Char × Cursor)
  | 0, done, cursor => .ok (done, cursor)
  | fuel + 1, done, cursor =>
      let run := cursor.run isAddressChar
      let next := Cursor.move run.length cursor
      if next.peek = some '%' then do
        let (bytes, next) ← escapedBytes (next.rest.length + 1) next
        match Text.decodeUtf8 ⟨bytes.toArray⟩ with
        | .ok text => addressFrom fuel (done ++ run ++ text.toList) next
        | .error _ => .error .malformed
      else .ok (done ++ run, next)

/-- What follows the handle of a tag. -/
def tagAddress (cursor : Cursor) : Except Fault (String × Cursor) := do
  let (address, next) ← addressFrom (cursor.rest.length + 1) [] cursor
  if address.isEmpty then .error .malformed
  else return (String.ofList address, next)

private def hasHandle (cursor : Cursor) : Bool :=
  (cursor.rest.drop 1).takeWhile (fun c => !endsWord (some c)) |>.contains '!'

def tagText (cursor : Cursor) : Except Fault (TagText × Cursor) := do
  let (tag, next) ←
    if cursor.peekAt 1 = some '<' then do
      let (address, next) ← tagAddress (Cursor.move 2 cursor)
      if next.peek = some '>' then pure ((⟨none, address⟩ : TagText), next.step)
      else .error .malformed
    else if endsIndicator (cursor.peekAt 1) then pure (⟨none, "!"⟩, cursor.step)
    else do
      let (handle, next) ←
        if hasHandle cursor then tagHandle cursor else pure ("!", cursor.step)
      let (address, next) ← tagAddress next
      pure (⟨some handle, address⟩, next)
  if endsWord next.peek then return (tag, next) else .error .malformed

/-! Directives. -/

private def decimalNumber (cursor : Cursor) : Except Fault (Nat × Cursor) :=
  let digits := cursor.run Char.isDigit
  if digits.isEmpty then .error .malformed
  else .ok (Text.ofDigits 10 (digits.filterMap Text.digit?), cursor.skip Char.isDigit)

private def versionDirective (cursor : Cursor) : Except Fault (Token × Cursor) := do
  let (major, next) ← decimalNumber cursor.skipSpaces
  if next.peek ≠ some '.' then .error .malformed
  let (_, next) ← decimalNumber next.step
  if endsWord next.peek then return (.version major, next) else .error .malformed

private def handleDirective (cursor : Cursor) : Except Fault (Token × Cursor) := do
  let (handle, next) ← tagHandle cursor.skipSpaces
  if next.peek ≠ some ' ' then .error .malformed
  let (lead, next) ← tagAddress next.skipSpaces
  if endsWord next.peek then return (.tagHandle handle lead, next) else .error .malformed

/-- The directive that starts here, with its line. -/
def directive (cursor : Cursor) : Except Fault (Token × Cursor) := do
  let name := cursor.step.run isNameChar
  let next := cursor.step.skip isNameChar
  if name.isEmpty || !endsWord next.peek then .error .malformed
  let (token, next) ←
    if name = "YAML".toList then versionDirective next
    else if name = "TAG".toList then handleDirective next
    else pure (Token.otherDirective, next.skipLine)
  let next := next.skipSpaces.skipComment
  match next.peek, next.lineBreak? with
  | none, _ => return (token, next)
  | some _, some (_, next) => return (token, next)
  | some _, none => .error .malformed

end ApiCompiler.Yaml
