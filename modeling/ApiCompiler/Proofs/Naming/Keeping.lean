import ApiCompiler.Proofs.Naming.Identifier
import ApiCompiler.Proofs.Text.Humps

/-!
Identifiers that stay as they are when they are made unique: those whose words can be told apart. Any
other is replaced although nothing else has its name.
-/

namespace ApiCompiler.Naming

variable {key : String} {seen : List String}

theorem isHumped_replacement {name other : String} (found : replacement? name = some other) :
    Text.isHumped other.toList = true := by
  have all : ∀ pair ∈ replacements, Text.isHumped pair.2.toList = true := by decide +kernel
  exact all (name, other) (mem_replacements found)

theorem removeAccents_of_isIdentifier {name : List Char} (identifier : isIdentifier name = true) :
    Text.removeAccents name = name :=
  Text.removeAccents_of_ascii fun c member =>
    Text.toNat_lt_of_isAlphanum (isAlphanum_of_isIdentifier identifier c member)

theorem flatten_words_of_isIdentifier {name : List Char} (identifier : isIdentifier name = true) :
    (Text.words name).flatten = name := by
  rw [Text.words, Text.flatten_asciiWords, removeAccents_of_isIdentifier identifier,
    List.filter_eq_self.mpr (isAlphanum_of_isIdentifier identifier)]

theorem camelCase_eq_self_iff (identifier : isIdentifier key.toList = true) :
    key.camelCase = key ↔ Text.isHumped key.toList = true := by
  have lower : key.toList.head?.any Char.isLower = true := by
    obtain ⟨c, rest, split, first⟩ := exists_cons_of_isIdentifier identifier
    rw [split]
    exact first
  rw [← Text.camelCase_eq_self_iff lower (isAlphanum_of_isIdentifier identifier), String.camelCase]
  constructor
  · intro same
    rw [← String.toList_ofList (l := Text.camelCase key.toList), same]
  · intro same
    rw [same, String.ofList_toList]

/-- No digit is spelled out in the camel case of an identifier. -/
theorem spellLeadingDigit_camelCase (identifier : isIdentifier key.toList = true) :
    String.ofList (spellLeadingDigit key.camelCase.toList) = key.camelCase := by
  have usable := isAlphanum_of_isIdentifier identifier
  obtain ⟨c, rest, split, lower⟩ := exists_cons_of_isIdentifier identifier
  have first : (Text.camelCase key.toList).head? = some c := by
    rw [Text.head?_camelCase, removeAccents_of_isIdentifier identifier, split,
      List.find?_cons_of_pos (usable c (by simp [split])), Option.map_some,
      Text.toLower_of_not_isUpper (Text.isUpper_of_isLower lower)]
  obtain ⟨others, camel⟩ := List.head?_eq_some_iff.mp first
  rw [String.camelCase, String.toList_ofList, camel, spellLeadingDigit,
    Text.not_isDigit_of_isLower lower]
  rfl

/-- An identifier gives itself if its words can be told apart. -/
theorem cleanIdentifier_eq_self_iff (identifier : isIdentifier key.toList = true)
    (unreserved : replacement? key = none) :
    cleanIdentifier key = key ↔ Text.isHumped key.toList = true := by
  rw [← camelCase_eq_self_iff identifier]
  simp only [cleanIdentifier, unreserved]
  split
  · rename_i other found
    constructor
    · rintro rfl
      exact (camelCase_eq_self_iff identifier).mpr (isHumped_replacement found)
    · intro same
      rw [same, unreserved] at found
      cases found
  · rw [spellLeadingDigit_camelCase identifier]

namespace Derives

variable {name : String} {others : Nat}

theorem eq_cleanIdentifier (derives : Derives seen name others key) :
    key = cleanIdentifier (otherName name others) := by
  have inside (name : String) (n : Nat) : otherName ("other " ++ name) n = otherName name (n + 1) := by
    induction n with
    | zero => rfl
    | succ n ih =>
        rw [otherName, ih]
        rfl
  induction derives with
  | found _ _ => rfl
  | @again name _ others _ _ ih => rw [ih, inside name others]

end Derives

/-- An identifier that is not in use is kept if its words can be told apart, and only then. -/
theorem uniqueIdentifier_eq_self_iff (identifier : isIdentifier key.toList = true)
    (unreserved : replacement? key = none) (unused : key ∉ seen) :
    (uniqueIdentifier key seen).1 = key ↔ Text.isHumped key.toList = true := by
  rw [← cleanIdentifier_eq_self_iff identifier unreserved]
  obtain ⟨others, -, derives⟩ := derives_uniqueIdentifier key seen
  cases others with
  | zero =>
      rw [derives.eq_cleanIdentifier]
      rfl
  | succ n =>
      -- A longer identifier is found, because the name itself gives none that is free.
      have longer : (uniqueIdentifier key seen).1 ≠ key := by
        intro same
        have long := length_cleanIdentifier_otherName_succ key n
        rw [← derives.eq_cleanIdentifier, same,
          flatten_words_of_isIdentifier identifier, String.length_toList] at long
        omega
      have changed : cleanIdentifier key ≠ key := by
        intro same
        cases derives with
        | again taken _ =>
            rw [same] at taken
            rcases taken with empty | used
            · rw [empty] at identifier
              cases identifier
            · exact unused used
      exact iff_of_false longer changed

end ApiCompiler.Naming
