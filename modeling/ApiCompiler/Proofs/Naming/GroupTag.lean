import ApiCompiler.Naming.GroupTag
import ApiCompiler.Proofs.Naming.Identifier
import ApiCompiler.Proofs.Text.Numerals

/-!
Tags of paths: ASCII letters and digits, neither reserved nor the name that the index of actions has.
They start with a letter unless a number stands behind other characters at the start of the path.
-/

namespace ApiCompiler.Naming

theorem replacement?_ne_index (name : String) : replacement? name ≠ some "index" := by
  have all : ∀ pair ∈ replacements, pair.2 ≠ "index" := by decide
  intro found
  exact all (name, "index") (mem_replacements found) rfl

theorem groupTag_ne_index {path tag : String} (tagged : groupTag path = .ok tag) :
    tag ≠ "index" := by
  rcases groupTag_cases tagged with rfl | rfl | ⟨name, found⟩ | ⟨text, -, -, free⟩
  · decide
  · decide
  · rintro rfl
    exact replacement?_ne_index name found
  · exact free

/-- A name that can stand for a file and in an address. -/
structure IsTag (tag : String) : Prop where
  some : tag.toList ≠ []
  usable : ∀ c ∈ tag.toList, c.isAlphanum = true

theorem IsTag.of_isIdentifier {tag : String} (identifier : isIdentifier tag.toList = true) :
    IsTag tag := by
  refine ⟨fun none => ?_, isAlphanum_of_isIdentifier identifier⟩
  rw [none] at identifier
  cases identifier

theorem isTag_groupTag {path tag : String} (tagged : groupTag path = .ok tag) : IsTag tag := by
  rcases groupTag_cases tagged with rfl | rfl | ⟨name, found⟩ | ⟨text, rfl, some, -⟩
  · exact .of_isIdentifier (by decide)
  · exact .of_isIdentifier (by decide)
  · exact .of_isIdentifier (isIdentifier_replacement found)
  · refine ⟨fun none => some (String.toList_inj.mp none), fun c member => ?_⟩
    rw [String.toList_ofList] at member
    exact Text.isAlphanum_of_mem_camelCase member

theorem IsTag.not_mem {tag : String} (usable : IsTag tag) {c : Char} (other : c.isAlphanum = false) :
    c ∉ tag.toList :=
  fun inside => Bool.false_ne_true (other.symm.trans (usable.usable c inside))

/-! First characters. -/

def firstSegment (path : String) : Option (List Char) :=
  (Text.splitAt '/' path.toList).find? (!·.isEmpty)

/-- Whether a digit comes first among the letters and digits of a text. -/
def startsWithDigit (text : List Char) : Bool :=
  ((Text.removeAccents text).find? Char.isAlphanum).any Char.isDigit

/-- A number comes first among the letters and digits of a segment, but not in the segment itself. -/
def HidesNumber (segment : List Char) : Prop :=
  segment.head?.any Char.isDigit = false ∧ startsWithDigit segment = true

theorem any_isDigit_head?_camelCase (text : List Char) :
    (Text.camelCase text).head?.any Char.isDigit = startsWithDigit text := by
  rw [Text.head?_camelCase, startsWithDigit]
  cases (Text.removeAccents text).find? Char.isAlphanum with
  | none => rfl
  | some c => exact Text.isDigit_toLower c

theorem startsWithDigit_of_isLower {text : List Char} (starts : text.head?.any Char.isLower = true) :
    startsWithDigit text = false := by
  cases text with
  | nil => cases starts
  | cons c rest =>
      have lower : c.isLower = true := starts
      have usable : c.isAlphanum = true := by simp [Text.isAlphanum_eq, lower]
      have own : Text.baseLetters c = [c] := if_pos (Text.toNat_lt_of_isAlphanum usable)
      rw [startsWithDigit, Text.removeAccents, List.flatMap_cons, own, List.singleton_append,
        List.find?_cons_of_pos usable]
      exact Text.not_isDigit_of_isLower lower

theorem spellLeadingNumber_ok {segment : List Char}
    (few : (segment.takeWhile Char.isDigit).length ≤ Text.digitLimit) :
    ∃ spelled, spellLeadingNumber segment = .ok spelled ∧
      (startsWithDigit spelled = true ↔ HidesNumber segment) := by
  rw [spellLeadingNumber]
  dsimp only
  cases segment with
  | nil => exact ⟨[], rfl, by simp [HidesNumber]⟩
  | cons c rest =>
      cases digit : c.isDigit with
      | false =>
          refine ⟨c :: rest, by simp [digit], ?_⟩
          simp [HidesNumber, digit]
      | true =>
          refine ⟨_, by rw [if_neg (by simp [digit]), if_neg (Nat.not_lt.mpr few)], ?_⟩
          rw [startsWithDigit_of_isLower (Text.any_head?_append (Text.isLower_head_spellNat _) _)]
          simp [HidesNumber, digit]

theorem notDigit_of_isIdentifier {name : List Char} (identifier : isIdentifier name = true) :
    name.head?.any Char.isDigit = false := by
  obtain ⟨c, rest, rfl, lower⟩ := exists_cons_of_isIdentifier identifier
  exact Text.not_isDigit_of_isLower lower

theorem notDigit_of_reserved {name other : String} (found : replacement? name = some other) :
    name.toList.head?.any Char.isDigit = false := by
  have all : ∀ pair ∈ replacements, pair.1.toList.head?.any Char.isDigit = false := by
    decide +kernel
  exact all (name, other) (mem_replacements found)

theorem any_isDigit_head?_freeTag (name : String) :
    (freeTag name).toList.head?.any Char.isDigit = name.toList.head?.any Char.isDigit := by
  rw [freeTag]
  split
  · rename_i none
    rw [String.isEmpty_iff.mp none]
    decide
  · split
    · rename_i index
      rw [index]
      decide
    · cases found : replacement? name with
      | none => rfl
      | some other =>
          rw [notDigit_of_reserved found]
          exact notDigit_of_isIdentifier (isIdentifier_replacement found)

theorem replacement?_freeTag (name : String) : replacement? (freeTag name) = none := by
  rw [freeTag]
  split
  · decide
  · split
    · decide
    · cases found : replacement? name with
      | none => exact found
      | some other => exact replacement?_replacement found

theorem IsTag.isAlpha_iff {tag : String} (usable : IsTag tag) :
    tag.toList.head?.any Char.isAlpha = true ↔ tag.toList.head?.any Char.isDigit = false := by
  obtain ⟨c, rest, text⟩ := List.exists_cons_of_ne_nil usable.some
  have known := usable.usable c (by simp [text])
  rw [Text.isAlphanum_eq, Bool.or_eq_true, Bool.or_eq_true, Text.isUpper_iff, Text.isLower_iff,
    Text.isDigit_iff] at known
  rw [text]
  show (c.isUpper || c.isLower) = true ↔ c.isDigit = false
  rw [Bool.or_eq_true, ← Bool.not_eq_true, Text.isUpper_iff, Text.isLower_iff, Text.isDigit_iff]
  omega

theorem groupTag_of_none {path : String} (none : firstSegment path = none) :
    groupTag path = .ok "root" := by
  rw [firstSegment] at none
  rw [groupTag, none]

theorem groupTag_of_segment {path : String} {segment spelled : List Char}
    (found : firstSegment path = some segment) (spells : spellLeadingNumber segment = .ok spelled) :
    groupTag path = .ok (freeTag (String.ofList (Text.camelCase spelled))) := by
  rw [firstSegment] at found
  rw [groupTag, found]
  dsimp only
  rw [spells]
  rfl

/--
The tag of a path whose first part starts with a number of not too many digits: letters and digits,
neither reserved nor the name of the index, and a letter first unless that part hides a number.
-/
theorem groupTag_usable {path : String} (few : ∀ segment ∈ firstSegment path,
    (segment.takeWhile Char.isDigit).length ≤ Text.digitLimit) :
    ∃ tag, groupTag path = .ok tag ∧ IsTag tag ∧ tag ≠ "index" ∧
      tag ∉ replacements.map Prod.fst ∧
      (tag.toList.head?.any Char.isAlpha = true ↔
        ∀ segment ∈ firstSegment path, ¬HidesNumber segment) := by
  suffices tagged : ∃ tag, groupTag path = .ok tag ∧ replacement? tag = none ∧
      (tag.toList.head?.any Char.isDigit = false ↔
        ∀ segment ∈ firstSegment path, ¬HidesNumber segment) by
    obtain ⟨tag, tagged, unreserved, starts⟩ := tagged
    have usable := isTag_groupTag tagged
    exact ⟨tag, tagged, usable, groupTag_ne_index tagged, not_mem_replacements unreserved,
      usable.isAlpha_iff.trans starts⟩
  cases found : firstSegment path with
  | none =>
      refine ⟨"root", groupTag_of_none found, by decide, iff_of_true (by decide) nofun⟩
  | some segment =>
      obtain ⟨spelled, spells, hides⟩ := spellLeadingNumber_ok (few segment found)
      refine ⟨_, groupTag_of_segment found spells, replacement?_freeTag _, ?_⟩
      rw [any_isDigit_head?_freeTag, String.toList_ofList, any_isDigit_head?_camelCase,
        ← Bool.not_eq_true, hides]
      simp

example : groupTag "/_2fa/verify" = .ok "2Fa" := by decide

end ApiCompiler.Naming
