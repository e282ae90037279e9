import ApiCompiler.Tree.Calendar

/-!
Why a text is not YAML, or holds a value that cannot be.
-/

namespace ApiCompiler.Yaml

inductive Fault
  | malformed
  | calendar (fault : CalendarFault)
  | number (base : Nat) (text : String)
  | fraction (text : String)
  | digits (count : Nat)
  | character
  /-- A text under the tag of truth values that is none of their words. -/
  | word (text : String)
  /-- No text under the tag of a number. -/
  | noNumber
  /-- A text under the tag of dates that has not their form. -/
  | noDate
  deriving DecidableEq

end ApiCompiler.Yaml
