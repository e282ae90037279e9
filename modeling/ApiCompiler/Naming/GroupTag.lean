import ApiCompiler.Naming.Reserved
import ApiCompiler.Text.SpelledNumber
import ApiCompiler.Text.Words

/-!
Tags that group the actions of a component by the first segment of their path.
-/

namespace ApiCompiler.Naming

/-- A path segment that starts with more digits than a number may have. -/
structure TooManyDigits where
  count : Nat
  deriving DecidableEq

/-- A segment with its leading number spelled out and set apart. -/
def spellLeadingNumber (segment : List Char) : Except TooManyDigits (List Char) :=
  let digits := segment.takeWhile Char.isDigit
  if digits.isEmpty then .ok segment
  else if Text.digitLimit < digits.length then .error ⟨digits.length⟩
  else
    let number := Text.ofDigits 10 (digits.filterMap Text.digit?)
    .ok ((Text.spellNat number).toList ++ ' ' :: segment.dropWhile Char.isDigit)

/-- The tag of a camel-case name: the generated index keeps `index` for itself. -/
def freeTag (name : String) : String :=
  if name.isEmpty then "root"
  else if name = "index" then "indexGroup"
  else (replacement? name).getD name

/-- The tag of a path; `root` if its first segment gives no name. -/
def groupTag (path : String) : Except TooManyDigits String :=
  match (Text.splitAt '/' path.toList).find? (!·.isEmpty) with
  | none => .ok "root"
  | some segment => do
      let spelled ← spellLeadingNumber segment
      return freeTag (String.ofList (Text.camelCase spelled))

theorem groupTag_cases {path tag : String} (tagged : groupTag path = .ok tag) :
    tag = "root" ∨ tag = "indexGroup" ∨ (∃ name, replacement? name = some tag) ∨
      ∃ text, tag = String.ofList (Text.camelCase text) ∧ tag ≠ "" ∧ tag ≠ "index" := by
  simp only [groupTag] at tagged
  split at tagged
  · cases tagged
    exact .inl rfl
  · rename_i segment _
    cases spelled : spellLeadingNumber segment with
    | error fault =>
        rw [spelled] at tagged
        cases tagged
    | ok text =>
        rw [spelled] at tagged
        cases tagged
        generalize camel : String.ofList (Text.camelCase text) = name
        rw [freeTag]
        split
        · exact .inl rfl
        · rename_i some
          split
          · exact .inr (.inl rfl)
          · rename_i free
            cases found : replacement? name with
            | some other => exact .inr (.inr (.inl ⟨name, found⟩))
            | none => exact .inr (.inr (.inr ⟨text, camel.symm, by simpa using some, free⟩))

end ApiCompiler.Naming
