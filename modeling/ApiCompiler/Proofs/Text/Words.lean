import ApiCompiler.Text.Words
import Mathlib.Data.List.TakeWhile

/-!
Words of a text: each is a non-empty run of ASCII letters and digits, and the first word and what
follows it make up the text again. Camel case keeps their letters and digits up to letter case.
-/

namespace ApiCompiler.Text

/-! Letters by their codes. -/

theorem isAlphanum_eq (c : Char) : c.isAlphanum = (c.isUpper || c.isLower || c.isDigit) := rfl

theorem isUpper_iff {c : Char} : c.isUpper = true ↔ 65 ≤ c.toNat ∧ c.toNat ≤ 90 := by
  show decide (c.val ≥ 'A'.val ∧ c.val ≤ 'Z'.val) = true ↔ _
  rw [decide_eq_true_iff]
  exact and_congr UInt32.le_iff_toNat_le UInt32.le_iff_toNat_le

theorem isLower_iff {c : Char} : c.isLower = true ↔ 97 ≤ c.toNat ∧ c.toNat ≤ 122 := by
  show (decide (c.val ≥ 'a'.val) && decide (c.val ≤ 'z'.val)) = true ↔ _
  rw [Bool.and_eq_true, decide_eq_true_iff, decide_eq_true_iff]
  exact and_congr UInt32.le_iff_toNat_le UInt32.le_iff_toNat_le

theorem isDigit_iff {c : Char} : c.isDigit = true ↔ 48 ≤ c.toNat ∧ c.toNat ≤ 57 := by
  show (decide (c.val ≥ '0'.val) && decide (c.val ≤ '9'.val)) = true ↔ _
  rw [Bool.and_eq_true, decide_eq_true_iff, decide_eq_true_iff]
  exact and_congr UInt32.le_iff_toNat_le UInt32.le_iff_toNat_le

theorem isUpper_of_isLower {c : Char} (lower : c.isLower = true) : c.isUpper = false := by
  rw [isLower_iff] at lower
  rw [← Bool.not_eq_true, isUpper_iff]
  omega

theorem not_isUpper_of_isDigit {c : Char} (digit : c.isDigit = true) : c.isUpper = false := by
  rw [isDigit_iff] at digit
  rw [← Bool.not_eq_true, isUpper_iff]
  omega

theorem not_isDigit_of_isLower {c : Char} (lower : c.isLower = true) : c.isDigit = false := by
  rw [isLower_iff] at lower
  rw [← Bool.not_eq_true, isDigit_iff]
  omega

theorem not_isLower_of_isDigit {c : Char} (digit : c.isDigit = true) : c.isLower = false := by
  rw [isDigit_iff] at digit
  rw [← Bool.not_eq_true, isLower_iff]
  omega

theorem not_isDigit_of_isUpper {c : Char} (upper : c.isUpper = true) : c.isDigit = false := by
  rw [isUpper_iff] at upper
  rw [← Bool.not_eq_true, isDigit_iff]
  omega

theorem not_isLower_of_isUpper {c : Char} (upper : c.isUpper = true) : c.isLower = false := by
  rw [isUpper_iff] at upper
  rw [← Bool.not_eq_true, isLower_iff]
  omega

theorem toNat_lt_of_isAlphanum {c : Char} (usable : c.isAlphanum = true) : c.toNat < 0x80 := by
  rw [isAlphanum_eq, Bool.or_eq_true, Bool.or_eq_true, isUpper_iff, isLower_iff, isDigit_iff] at usable
  omega

theorem toNat_toLower {c : Char} (upper : c.isUpper = true) :
    c.toLower.toNat = c.toNat + 32 := by
  have range := isUpper_iff.mp upper
  have shifted : c.toLower.val = c.val + 32 :=
    congrArg Char.val (dif_pos (of_decide_eq_true upper))
  have small : c.val.toNat = c.toNat := rfl
  rw [← Char.toNat_val, shifted, UInt32.toNat_add, small]
  exact Nat.mod_eq_of_lt (by have : (32 : UInt32).toNat = 32 := rfl; omega)

theorem toLower_of_not_isUpper {c : Char} (other : c.isUpper = false) : c.toLower = c :=
  dif_neg (of_decide_eq_false other)

theorem toNat_toUpper {c : Char} (lower : c.isLower = true) :
    c.toUpper.toNat + 32 = c.toNat := by
  have range := isLower_iff.mp lower
  have within : 'a'.val ≤ c.val ∧ c.val ≤ 'z'.val :=
    ⟨UInt32.le_iff_toNat_le.mpr range.1, UInt32.le_iff_toNat_le.mpr range.2⟩
  have shifted : c.toUpper.val = c.val + ('A'.val - 'a'.val) := by
    delta Char.toUpper
    rw [dif_pos within]
  have wrapped : ('A'.val - 'a'.val).toNat = 2 ^ 32 - 32 := by decide
  have small : c.val.toNat = c.toNat := rfl
  rw [← Char.toNat_val, shifted, UInt32.toNat_add, small, wrapped]
  omega

theorem toUpper_of_not_isLower {c : Char} (other : c.isLower = false) : c.toUpper = c := by
  refine dif_neg fun within => ?_
  rw [← Bool.not_eq_true, isLower_iff] at other
  exact other ⟨UInt32.le_iff_toNat_le.mp within.1, UInt32.le_iff_toNat_le.mp within.2⟩

/-! Words. -/

theorem wordAt_append (text : List Char) : (wordAt text).1 ++ (wordAt text).2 = text := by
  have whole := List.takeWhile_append_dropWhile (p := Char.isUpper) (l := text)
  simp only [wordAt]
  split
  · rw [List.dropLast_eq_take, ← List.append_assoc, List.take_append_drop]
    exact whole
  · rw [List.append_assoc, List.append_assoc, List.takeWhile_append_dropWhile,
      List.takeWhile_append_dropWhile]
    exact whole

theorem wordAt_fst_ne_nil {c : Char} (rest : List Char) (usable : c.isAlphanum = true) :
    (wordAt (c :: rest)).1 ≠ [] := by
  simp only [wordAt]
  split
  · rename_i humped
    simp only [Bool.and_eq_true, decide_eq_true_eq] at humped
    intro empty
    have short := congrArg List.length empty
    simp only [List.length_dropLast, List.length_nil] at short
    omega
  · intro empty
    simp only [List.append_eq_nil_iff] at empty
    obtain ⟨⟨noCapital, noSmall⟩, noDigit⟩ := empty
    have notUpper : c.isUpper = false := by
      cases upper : c.isUpper with
      | false => rfl
      | true => simp [upper] at noCapital
    rw [List.dropWhile_cons_of_neg (by simp [notUpper])] at noSmall noDigit
    have notLower : c.isLower = false := by
      cases lower : c.isLower with
      | false => rfl
      | true => simp [lower] at noSmall
    rw [List.dropWhile_cons_of_neg (by simp [notLower])] at noDigit
    have notDigit : c.isDigit = false := by
      cases digit : c.isDigit with
      | false => rfl
      | true => simp [digit] at noDigit
    simp [isAlphanum_eq, notUpper, notLower, notDigit] at usable

theorem isAlphanum_of_mem_wordAt {text : List Char} {c : Char} (member : c ∈ (wordAt text).1) :
    c.isAlphanum = true := by
  simp only [wordAt] at member
  split at member
  · have capital := List.mem_takeWhile_imp (List.dropLast_subset _ member)
    simp [isAlphanum_eq, capital]
  · simp only [List.mem_append] at member
    rcases member with (capital | small) | digit
    · simp [isAlphanum_eq, List.mem_takeWhile_imp capital]
    · simp [isAlphanum_eq, List.mem_takeWhile_imp small]
    · simp [isAlphanum_eq, List.mem_takeWhile_imp digit]

theorem length_wordAt_snd_lt {c : Char} (rest : List Char) (usable : c.isAlphanum = true) :
    (wordAt (c :: rest)).2.length < (c :: rest).length := by
  have whole := congrArg List.length (wordAt_append (c :: rest))
  have some := List.length_pos_iff.mpr (wordAt_fst_ne_nil rest usable)
  rw [List.length_append] at whole
  omega

/-- A limit that the text does not reach plays no part. -/
theorem wordsWithin_eq_asciiWords {fuel : Nat} {text : List Char} (enough : text.length ≤ fuel) :
    wordsWithin fuel text = asciiWords text := by
  -- Two limits are compared, since the rest of a text is read under a limit that is not its length.
  suffices agree : ∀ (bound : Nat) (text : List Char) (first second : Nat), text.length ≤ bound →
      text.length ≤ first → text.length ≤ second →
      wordsWithin first text = wordsWithin second text from
    agree text.length text fuel text.length (Nat.le_refl _) enough (Nat.le_refl _)
  intro bound
  induction bound with
  | zero =>
      intro text first second short _ _
      have empty : text = [] := List.length_eq_zero_iff.mp (by omega)
      subst empty
      cases first <;> cases second <;> rfl
  | succ bound ih =>
      intro text first second short enoughFirst enoughSecond
      cases text with
      | nil => cases first <;> cases second <;> rfl
      | cons c rest =>
          simp only [List.length_cons] at short enoughFirst enoughSecond
          obtain ⟨first, rfl⟩ := Nat.exists_eq_succ_of_ne_zero (n := first) (by omega)
          obtain ⟨second, rfl⟩ := Nat.exists_eq_succ_of_ne_zero (n := second) (by omega)
          simp only [wordsWithin]
          split
          · rename_i usable
            have shorter := length_wordAt_snd_lt rest usable
            simp only [List.length_cons] at shorter
            rw [ih _ first second (by omega) (by omega) (by omega)]
          · exact ih rest first second (by omega) (by omega) (by omega)

@[simp] theorem asciiWords_nil : asciiWords [] = [] := rfl

theorem asciiWords_cons_of_alphanum {c : Char} (rest : List Char) (usable : c.isAlphanum = true) :
    asciiWords (c :: rest) =
      (wordAt (c :: rest)).1 :: asciiWords (wordAt (c :: rest)).2 := by
  have shorter := length_wordAt_snd_lt rest usable
  simp only [List.length_cons] at shorter
  simp only [asciiWords, List.length_cons, wordsWithin, usable, if_true]
  rw [wordsWithin_eq_asciiWords (by omega)]
  rfl

theorem asciiWords_cons_of_separator {c : Char} (rest : List Char)
    (separator : c.isAlphanum = false) : asciiWords (c :: rest) = asciiWords rest := by
  simp [asciiWords, wordsWithin, separator]

theorem eq_wordAt_of_mem_asciiWords {text word : List Char} (member : word ∈ asciiWords text) :
    ∃ c rest, c.isAlphanum = true ∧ word = (wordAt (c :: rest)).1 := by
  induction bound : text.length using Nat.strong_induction_on generalizing text with
  | _ bound ih =>
      subst bound
      cases text with
      | nil => simp at member
      | cons c rest =>
          cases usable : c.isAlphanum with
          | false =>
              rw [asciiWords_cons_of_separator rest usable] at member
              exact ih rest.length (by simp) member rfl
          | true =>
              rw [asciiWords_cons_of_alphanum rest usable] at member
              rcases List.mem_cons.mp member with rfl | later
              · exact ⟨c, rest, usable, rfl⟩
              · exact ih _ (length_wordAt_snd_lt rest usable) later rfl

theorem mem_asciiWords {text word : List Char} (member : word ∈ asciiWords text) :
    word ≠ [] ∧ ∀ c ∈ word, c.isAlphanum = true := by
  obtain ⟨c, rest, usable, rfl⟩ := eq_wordAt_of_mem_asciiWords member
  exact ⟨wordAt_fst_ne_nil rest usable, fun _ => isAlphanum_of_mem_wordAt⟩

theorem flatten_asciiWords (text : List Char) :
    (asciiWords text).flatten = text.filter Char.isAlphanum := by
  induction bound : text.length using Nat.strong_induction_on generalizing text with
  | _ bound ih =>
      subst bound
      cases text with
      | nil => rfl
      | cons c rest =>
          cases usable : c.isAlphanum with
          | false =>
              rw [asciiWords_cons_of_separator rest usable, List.filter_cons_of_neg (by simp [usable])]
              exact ih rest.length (by simp) rest rfl
          | true =>
              have first : (wordAt (c :: rest)).1.filter Char.isAlphanum = (wordAt (c :: rest)).1 :=
                List.filter_eq_self.mpr fun _ => isAlphanum_of_mem_wordAt
              have later := ih _ (length_wordAt_snd_lt rest usable) (wordAt (c :: rest)).2 rfl
              rw [asciiWords_cons_of_alphanum rest usable, List.flatten_cons, later,
                ← wordAt_append (c :: rest), List.filter_append, first, wordAt_append]

theorem removeAccents_append (first second : List Char) :
    removeAccents (first ++ second) = removeAccents first ++ removeAccents second := by
  simp [removeAccents]

theorem removeAccents_of_ascii {text : List Char} (ascii : ∀ c ∈ text, c.toNat < 0x80) :
    removeAccents text = text := by
  induction text with
  | nil => rfl
  | cons c rest ih =>
      have first : baseLetters c = [c] := by simp [baseLetters, ascii c (by simp)]
      have others : removeAccents rest = rest := ih fun d member => ascii d (by simp [member])
      calc removeAccents (c :: rest) = baseLetters c ++ removeAccents rest := rfl
        _ = c :: rest := by rw [first, others]; rfl

/-! Letter case. -/

theorem toLower_cases (c : Char) :
    (c.isUpper = true ∧ c.toLower.isLower = true) ∨ (c.isUpper = false ∧ c.toLower = c) := by
  cases upper : c.isUpper with
  | false => exact .inr ⟨rfl, toLower_of_not_isUpper upper⟩
  | true =>
      have range := isUpper_iff.mp upper
      have code := toNat_toLower upper
      exact .inl ⟨rfl, isLower_iff.mpr (by omega)⟩

theorem toUpper_cases (c : Char) :
    (c.isLower = true ∧ c.toUpper.isUpper = true) ∨ (c.isLower = false ∧ c.toUpper = c) := by
  cases lower : c.isLower with
  | false => exact .inr ⟨rfl, toUpper_of_not_isLower lower⟩
  | true =>
      have range := isLower_iff.mp lower
      have code := toNat_toUpper lower
      exact .inl ⟨rfl, isUpper_iff.mpr (by omega)⟩

theorem toUpper_toLower {c : Char} (notLower : c.isLower = false) : c.toLower.toUpper = c := by
  rcases toLower_cases c with ⟨upper, lower⟩ | ⟨-, same⟩
  · have down := toNat_toLower upper
    have up := toNat_toUpper lower
    exact Char.toNat_inj.mp (by omega)
  · rw [same]
    exact toUpper_of_not_isLower notLower

theorem toUpper_ne_self {c : Char} (lower : c.isLower = true) : c.toUpper ≠ c := by
  intro same
  have code := toNat_toUpper lower
  rw [same] at code
  omega

theorem toLower_ne_self {c : Char} (upper : c.isUpper = true) : c.toLower ≠ c := by
  intro same
  have code := toNat_toLower upper
  rw [same] at code
  omega

theorem isUpper_toLower (c : Char) : c.toLower.isUpper = false := by
  rcases toLower_cases c with ⟨-, lower⟩ | ⟨notUpper, same⟩
  · exact isUpper_of_isLower lower
  · rw [same, notUpper]

theorem isAlphanum_toLower (c : Char) : c.toLower.isAlphanum = c.isAlphanum := by
  rcases toLower_cases c with ⟨upper, lower⟩ | ⟨-, same⟩
  · simp [isAlphanum_eq, upper, lower]
  · rw [same]

theorem isAlphanum_toUpper (c : Char) : c.toUpper.isAlphanum = c.isAlphanum := by
  rcases toUpper_cases c with ⟨lower, upper⟩ | ⟨-, same⟩
  · simp [isAlphanum_eq, upper, lower]
  · rw [same]

theorem isDigit_toLower (c : Char) : c.toLower.isDigit = c.isDigit := by
  rcases toLower_cases c with ⟨upper, lower⟩ | ⟨-, same⟩
  · have range := isUpper_iff.mp upper
    have range' := isLower_iff.mp lower
    rw [Bool.eq_iff_iff, isDigit_iff, isDigit_iff]
    omega
  · rw [same]

theorem length_capitalize (word : List Char) : (capitalize word).length = word.length := by
  cases word with
  | nil => rfl
  | cons c rest => rfl

theorem isAlphanum_of_mem_capitalize {word : List Char}
    (usable : ∀ c ∈ word, c.isAlphanum = true) :
    ∀ c ∈ capitalize word, c.isAlphanum = true := by
  cases word with
  | nil => simp [capitalize]
  | cons first rest =>
      intro c member
      rcases List.mem_cons.mp member with rfl | later
      · rw [isAlphanum_toUpper]
        exact usable first (by simp)
      · exact usable c (by simp [later])

theorem isAlphanum_of_mem_camelCase {text : List Char} {c : Char} (member : c ∈ camelCase text) :
    c.isAlphanum = true := by
  have lowered {word : List Char} (isWord : word ∈ words text) :
      ∀ d ∈ word.map Char.toLower, d.isAlphanum = true := by
    intro d isLowered
    obtain ⟨original, isOriginal, rfl⟩ := List.mem_map.mp isLowered
    rw [isAlphanum_toLower]
    exact (mem_asciiWords isWord).2 original isOriginal
  simp only [camelCase] at member
  split at member
  · simp at member
  · rename_i head tail split
    rcases List.mem_append.mp member with first | later
    · exact lowered (by simp [split]) c first
    · obtain ⟨word, isWord, inWord⟩ := List.mem_flatMap.mp later
      exact isAlphanum_of_mem_capitalize (lowered (by simp [split, isWord])) c inWord

theorem length_camelCase (text : List Char) :
    (camelCase text).length = (words text).flatten.length := by
  simp only [camelCase]
  split
  · rename_i split
    simp [split]
  · rename_i head tail split
    simp [split, List.length_flatMap, List.length_flatten, length_capitalize]

theorem camelCase_eq_nil_iff {text : List Char} :
    camelCase text = [] ↔ ∀ c ∈ removeAccents text, c.isAlphanum = false := by
  rw [← List.length_eq_zero_iff, length_camelCase, words, flatten_asciiWords,
    List.length_eq_zero_iff, List.filter_eq_nil_iff]
  simp

/-- Camel case starts with the first letter or digit of the text, in lower case. -/
theorem head?_camelCase (text : List Char) :
    (camelCase text).head? =
      ((removeAccents text).find? Char.isAlphanum).map Char.toLower := by
  have first : ((removeAccents text).filter Char.isAlphanum).head? =
      (words text).flatten.head? := by
    rw [words, flatten_asciiWords]
  rw [← List.head?_filter, first, camelCase]
  split
  · rename_i none
    rw [none]
    rfl
  · rename_i head tail split
    have isWord : head ∈ words text := by simp [split]
    obtain ⟨c, rest, rfl⟩ := List.exists_cons_of_ne_nil (mem_asciiWords isWord).1
    rw [split]
    rfl

theorem isUpper_head_camelCase {text rest : List Char} {c : Char}
    (camel : camelCase text = c :: rest) : c.isUpper = false := by
  simp only [camelCase] at camel
  split at camel
  · simp at camel
  · rename_i head tail split
    have isWord : head ∈ words text := by simp [split]
    obtain ⟨some, -⟩ := mem_asciiWords isWord
    obtain ⟨first, others, rfl⟩ := List.exists_cons_of_ne_nil some
    simp only [List.map_cons, List.cons_append, List.cons.injEq] at camel
    rw [← camel.1]
    exact isUpper_toLower first

end ApiCompiler.Text
