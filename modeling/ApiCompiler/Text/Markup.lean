import ApiCompiler.Text.Blank
import ApiCompiler.Text.Segments

/-!
Console markup: names of styles in square brackets around the text they apply to. A backslash before
a bracket makes it plain. Without colours the text is what remains when the tags are taken out.
-/

namespace ApiCompiler.Text.Markup

/-- A part of a marked text: plain characters, or brackets that may be a tag behind backslashes. -/
inductive Chunk
  | plain (text : List Char)
  | bracketed (backslashes : Nat) (content : List Char)
  deriving DecidableEq

namespace Chunk

def written : Chunk → List Char
  | .plain text => text
  | .bracketed backslashes content =>
      List.replicate backslashes '\\' ++ '[' :: content ++ [']']

def escaped : Chunk → List Char
  | .plain text => text
  | .bracketed backslashes content =>
      List.replicate (2 * backslashes + 1) '\\' ++ '[' :: content ++ [']']

end Chunk

private def startsTag (c : Char) : Bool :=
  ('a' ≤ c && c ≤ 'z') || c = '#' || c = '/' || c = '@'

/-- What stands between brackets at the start of a text, if it may be a tag, and the rest. -/
private def content? (text : List Char) : Option (List Char × List Char) :=
  match text with
  | '[' :: first :: rest =>
      let inner := rest.takeWhile fun c => c ≠ ']' && c ≠ '['
      match rest.drop inner.length with
      | ']' :: after => if startsTag first then some (first :: inner, after) else none
      | _ => none
  | _ => none

private def chunksWithin : Nat → List Char → List Chunk
  | 0, _ => []
  | fuel + 1, text =>
      let slashes := text.takeWhile (· = '\\')
      let rest := text.drop slashes.length
      match content? rest with
      | some (content, rest) => .bracketed slashes.length content :: chunksWithin fuel rest
      | none =>
          match rest with
          | [] => if slashes.isEmpty then [] else [.plain slashes]
          | c :: rest => .plain (slashes ++ [c]) :: chunksWithin fuel rest

def chunks (text : List Char) : List Chunk :=
  chunksWithin (text.length + 1) text

/-- Two backslashes at the end are none of a tag's, so a single one is doubled. -/
private def guardEnd (text : List Char) : List Char :=
  match text.reverse with
  | ['\\'] => text ++ ['\\']
  | '\\' :: c :: _ => if c = '\\' then text else text ++ ['\\']
  | _ => text

/-- A text written so that nothing in it is a tag. -/
def escape (text : String) : String :=
  String.ofList (guardEnd ((chunks text.toList).flatMap Chunk.escaped))

/-- A closing tag with nothing to close. -/
structure Fault where
  tag : String
  position : Nat
  deriving DecidableEq

def Fault.message (fault : Fault) : String :=
  "closing tag '" ++ fault.tag ++ "' at position " ++ toString fault.position ++
    (if fault.tag = "[/]" then " has nothing to close" else " doesn't match any open tag")

/-- A style by its name without regard to blanks around it and letter case. -/
private def styleName (name : List Char) : List Char :=
  (Text.trim name).map Char.toLower

/-- The styles in force once a tag is read, the last one first. -/
private def applyTag (content : List Char) (position : Nat) (styles : List (List Char)) :
    Except Fault (List (List Char)) :=
  let (name, _) := Text.cut '=' content
  match name with
  | '/' :: closed =>
      let closed := styleName closed
      if closed.isEmpty then
        match styles with
        | [] => .error ⟨"[/]", position⟩
        | _ :: rest => .ok rest
      else if styles.contains closed then .ok (styles.erase closed)
      else .error ⟨String.ofList ('[' :: content ++ [']']), position⟩
  | _ => .ok (styleName name :: styles)

private def renderFrom (position : Nat) (styles : List (List Char)) :
    List Chunk → Except Fault (List Char)
  | [] => .ok []
  | chunk :: rest => do
      let next := position + chunk.written.length
      match chunk with
      | .plain text =>
          return Text.replace ['\\', '['] ['['] text ++ (← renderFrom next styles rest)
      | .bracketed backslashes content =>
          let kept := List.replicate (backslashes / 2) '\\'
          if backslashes % 2 = 1 then
            return kept ++ '[' :: content ++ ']' :: (← renderFrom next styles rest)
          else
            let styles ← applyTag content (position + backslashes) styles
            return kept ++ (← renderFrom next styles rest)

def render (text : String) : Except Fault String := do
  return String.ofList (← renderFrom 0 [] (chunks text.toList))

end ApiCompiler.Text.Markup
