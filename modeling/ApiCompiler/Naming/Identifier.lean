import ApiCompiler.Naming.Reserved
import ApiCompiler.Text.SpelledNumber
import ApiCompiler.Text.Words

/-!
Identifiers for names taken from a description. An identifier is empty if the name has no letter or
digit; a list of names already in use is threaded through, so that none is used twice.
-/

namespace ApiCompiler.Naming

def spellLeadingDigit : List Char → List Char
  | [] => []
  | c :: rest =>
      if c.isDigit then (Text.spellNat (c.toNat - '0'.toNat)).toList ++ rest else c :: rest

/-- The identifier for a name: a replacement if it is reserved, before or after camel case. -/
def cleanIdentifier (name : String) : String :=
  match replacement? name with
  | some other => other
  | none =>
      let identifier := name.camelCase
      match replacement? identifier with
      | some other => other
      | none => String.ofList (spellLeadingDigit identifier.toList)

/-- The name with a number of `other` words in front. -/
def otherName (name : String) : Nat → String
  | 0 => name
  | n + 1 => "other " ++ otherName name n

def remember (key : String) (seen : List String) : List String :=
  if seen.contains key then seen else seen ++ [key]

def firstFree (name : String) (seen : List String) : (left tried : Nat) → String
  | 0, tried => cleanIdentifier (otherName name tried)
  | left + 1, tried =>
      let key := cleanIdentifier (otherName name tried)
      if key.isEmpty || seen.contains key then firstFree name seen left (tried + 1) else key

/--
The first identifier not in use among those for the name, the name after `other`, the name after
`other other` and so on. They differ from each other, so one more than there are names in use is
always enough, and one more again if the name itself gives none.
-/
def uniqueIdentifier (name : String) (seen : List String) : String × List String :=
  let key := firstFree name seen (seen.length + 1) 0
  (key, remember key seen)

end ApiCompiler.Naming
