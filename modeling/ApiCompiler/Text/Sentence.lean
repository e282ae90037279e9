import ApiCompiler.Text.Blank

/-!
One-line descriptions: the first sentence of the first line of a text that is not blank, without
markup tags.
-/

namespace ApiCompiler.Text

def dropTagsFrom : List Char → Nat → List Char
  | [], _ => []
  | _ :: rest, skip + 1 => dropTagsFrom rest skip
  | c :: rest, 0 =>
      if c = '<' then
        match rest.span (· ≠ '>') with
        | (_ :: inside, _ :: _) => dropTagsFrom rest (inside.length + 2)
        | _ => c :: dropTagsFrom rest 0
      else c :: dropTagsFrom rest 0

/-- The text without tags: `<`, at least one character other than `>`, and `>`. -/
def dropTags (text : List Char) : List Char :=
  dropTagsFrom text 0

def endsSentence (c : Char) : Bool :=
  c = '.' || c = '!' || c = '?'

def description? (text : List Char) : Option (List Char) :=
  match (lines (dropTags text)).find? (fun line => !(trim line).isEmpty) with
  | none => none
  | some line =>
      let sentence := trim (line.takeWhile (!endsSentence ·))
      if sentence.isEmpty then none else some sentence

end ApiCompiler.Text

namespace String

def description? (text : String) : Option String :=
  (ApiCompiler.Text.description? text.toList).map String.ofList

end String
