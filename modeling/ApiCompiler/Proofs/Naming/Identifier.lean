import Mathlib.Data.List.Nodup
import Mathlib.Data.Finset.Card
import ApiCompiler.Naming.Identifier
import ApiCompiler.Proofs.Text.WordForms

/-!
Identifiers for names: each is a lower-case letter followed by letters and digits, unless the name
has none, and one that is not in use is always found.
-/

namespace ApiCompiler.Naming

/-- A lower-case ASCII letter followed by ASCII letters and digits. -/
def isIdentifier : List Char → Bool
  | [] => false
  | c :: rest => c.isLower && rest.all Char.isAlphanum

theorem isIdentifier_cons {c : Char} {rest : List Char} (lower : c.isLower = true)
    (usable : ∀ d ∈ rest, d.isAlphanum = true) : isIdentifier (c :: rest) = true := by
  simpa [isIdentifier, lower] using usable

theorem exists_cons_of_isIdentifier {name : List Char} (identifier : isIdentifier name = true) :
    ∃ c rest, name = c :: rest ∧ c.isLower = true := by
  cases name with
  | nil => cases identifier
  | cons c rest =>
      rw [isIdentifier, Bool.and_eq_true] at identifier
      exact ⟨c, rest, rfl, identifier.1⟩

theorem isAlphanum_of_isIdentifier {name : List Char} (identifier : isIdentifier name = true) :
    ∀ c ∈ name, c.isAlphanum = true := by
  cases name with
  | nil => simp
  | cons first rest =>
      simp only [isIdentifier, Bool.and_eq_true, List.all_eq_true] at identifier
      intro c member
      rcases List.mem_cons.mp member with rfl | later
      · simp [Text.isAlphanum_eq, identifier.1]
      · exact identifier.2 c later

/-! Reserved names. -/

theorem mem_replacements {name other : String} (found : replacement? name = some other) :
    (name, other) ∈ replacements := by
  obtain ⟨front, back, split, -⟩ := List.lookup_eq_some_iff.mp found
  rw [split]
  exact List.mem_append_right front List.mem_cons_self

theorem isIdentifier_replacement {name other : String} (found : replacement? name = some other) :
    isIdentifier other.toList = true := by
  have all : ∀ pair ∈ replacements, isIdentifier pair.2.toList = true := by decide +kernel
  exact all (name, other) (mem_replacements found)

theorem camelCase_ne_nil_of_reserved {name other : String} (found : replacement? name = some other) :
    Text.camelCase name.toList ≠ [] := by
  have all : ∀ pair ∈ replacements, pair.1.toList.any Char.isAlphanum = true ∧
      pair.1.toList.all (fun c => decide (c.toNat < 0x80)) = true := by decide +kernel
  obtain ⟨some, every⟩ := all (name, other) (mem_replacements found)
  obtain ⟨c, inside, usable⟩ := List.any_eq_true.mp some
  have ascii : ∀ d ∈ name.toList, d.toNat < 0x80 := by simpa using every
  intro empty
  have unusable := Text.camelCase_eq_nil_iff.mp empty c
  rw [Text.removeAccents_of_ascii ascii] at unusable
  rw [unusable inside] at usable
  cases usable

theorem replacement?_of_other_append (rest : List Char) :
    replacement? (String.ofList ("other".toList ++ rest)) = none := by
  have none : ∀ pair ∈ replacements, ¬ "other".toList <+: pair.1.toList := by decide +kernel
  refine List.lookup_eq_none_iff.mpr fun pair member => ?_
  rw [bne_iff_ne]
  intro same
  refine none pair member ⟨rest, ?_⟩
  rw [← same]
  exact String.toList_ofList.symm

/-! Identifiers for names. -/

theorem digitValue_lt {c : Char} (digit : c.isDigit = true) : c.toNat - '0'.toNat < 10 := by
  have range : c.val ≥ '0'.val ∧ c.val ≤ '9'.val := by simpa [Char.isDigit] using digit
  have high : c.toNat ≤ 57 := UInt32.le_iff_toNat_le.mp range.2
  have zero : '0'.toNat = 48 := rfl
  omega

theorem isIdentifier_spellNat {n : Nat} (digit : n < 10) :
    isIdentifier (Text.spellNat n).toList = true := by
  have all : ∀ n < 10, isIdentifier (Text.named Text.ones n).toList = true := by decide
  rw [Text.spellNat, if_pos (by omega)]
  exact all n digit

theorem isIdentifier_append {first second : List Char} (identifier : isIdentifier first = true)
    (usable : ∀ c ∈ second, c.isAlphanum = true) : isIdentifier (first ++ second) = true := by
  cases first with
  | nil => simp [isIdentifier] at identifier
  | cons c rest =>
      simp only [isIdentifier, Bool.and_eq_true, List.all_eq_true] at identifier
      refine isIdentifier_cons identifier.1 fun d member => ?_
      rcases List.mem_append.mp member with early | late
      · exact identifier.2 d early
      · exact usable d late

theorem isIdentifier_spellLeadingDigit {c : Char} {rest : List Char} (notUpper : c.isUpper = false)
    (usable : ∀ d ∈ c :: rest, d.isAlphanum = true) :
    isIdentifier (spellLeadingDigit (c :: rest)) = true := by
  have later : ∀ d ∈ rest, d.isAlphanum = true := fun d member => usable d (by simp [member])
  simp only [spellLeadingDigit]
  split
  · rename_i digit
    exact isIdentifier_append (isIdentifier_spellNat (digitValue_lt digit)) later
  · rename_i notDigit
    have first := usable c (by simp)
    simp only [Text.isAlphanum_eq, notUpper, notDigit, Bool.false_or,
      Bool.or_false] at first
    exact isIdentifier_cons first later

theorem isIdentifier_cleanIdentifier {name : String} (usable : Text.camelCase name.toList ≠ []) :
    isIdentifier (cleanIdentifier name).toList = true := by
  simp only [cleanIdentifier]
  split
  · rename_i found
    exact isIdentifier_replacement found
  · split
    · rename_i found
      exact isIdentifier_replacement found
    · cases camel : Text.camelCase name.toList with
      | nil => exact absurd camel usable
      | cons c rest =>
          simp only [String.camelCase, camel, String.toList_ofList]
          refine isIdentifier_spellLeadingDigit (Text.isUpper_head_camelCase camel) fun d member => ?_
          rw [← camel] at member
          exact Text.isAlphanum_of_mem_camelCase member

/-- A name gives no identifier only if nothing of it can be used. -/
theorem cleanIdentifier_eq_empty_iff {name : String} :
    cleanIdentifier name = "" ↔ Text.camelCase name.toList = [] := by
  constructor
  · intro empty
    by_contra usable
    have identifier := isIdentifier_cleanIdentifier usable
    rw [empty] at identifier
    cases identifier
  · intro unusable
    have raw : replacement? name = none := Option.eq_none_iff_forall_not_mem.mpr
      fun _ found => camelCase_ne_nil_of_reserved found unusable
    have cased : replacement? (String.ofList []) = none := by decide
    simp only [cleanIdentifier, raw, String.camelCase, unusable, cased]
    rfl

theorem cleanIdentifier_cases (name : String) :
    cleanIdentifier name = "" ∨ isIdentifier (cleanIdentifier name).toList = true := by
  by_cases usable : Text.camelCase name.toList = []
  · exact .inl (cleanIdentifier_eq_empty_iff.mpr usable)
  · exact .inr (isIdentifier_cleanIdentifier usable)

theorem replacement?_replacement {name other : String} (found : replacement? name = some other) :
    replacement? other = none := by
  have all : ∀ pair ∈ replacements, replacement? pair.2 = none := by decide +kernel
  exact all (name, other) (mem_replacements found)

/-- No reserved name starts with the name of a digit. -/
theorem replacement?_spellNat_append {n : Nat} (digit : n < 10) (rest : List Char) :
    replacement? (String.ofList ((Text.spellNat n).toList ++ rest)) = none := by
  have none : ∀ n < 10, ∀ pair ∈ replacements,
      ¬ (Text.named Text.ones n).toList <+: pair.1.toList := by decide +kernel
  refine List.lookup_eq_none_iff.mpr fun pair member => ?_
  rw [bne_iff_ne]
  intro same
  refine none n digit pair member ⟨rest, ?_⟩
  rw [← same, String.toList_ofList, Text.spellNat, if_pos (by omega)]

theorem replacement?_cleanIdentifier (name : String) :
    replacement? (cleanIdentifier name) = none := by
  simp only [cleanIdentifier]
  split
  · rename_i found
    exact replacement?_replacement found
  · split
    · rename_i found
      exact replacement?_replacement found
    · rename_i unreserved
      cases camel : name.camelCase.toList with
      | nil => exact (by decide : replacement? (String.ofList []) = none)
      | cons c rest =>
          simp only [spellLeadingDigit]
          split
          · rename_i digit
            exact replacement?_spellNat_append (digitValue_lt digit) rest
          · rw [← camel, String.ofList_toList]
            exact unreserved

theorem not_mem_replacements {key : String} (unreserved : replacement? key = none) :
    key ∉ replacements.map Prod.fst := by
  intro reserved
  obtain ⟨pair, inside, same⟩ := List.mem_map.mp reserved
  exact bne_iff_ne.mp (List.lookup_eq_none_iff.mp unreserved pair inside) same.symm

/--
The identifier for a name is an ASCII lower-case letter followed by ASCII letters and digits, or
empty, which it is exactly for the names without any letter or digit; and it is never reserved.
-/
theorem cleanIdentifier_safe (name : String) :
    (cleanIdentifier name = "" ∨ isIdentifier (cleanIdentifier name).toList = true) ∧
      cleanIdentifier name ∉ replacements.map Prod.fst ∧
      (cleanIdentifier name = "" ↔
        ∀ c ∈ name.removeAccents.toList, c.isAlphanum = false) := by
  refine ⟨cleanIdentifier_cases name, not_mem_replacements (replacement?_cleanIdentifier name), ?_⟩
  rw [cleanIdentifier_eq_empty_iff, Text.camelCase_eq_nil_iff, String.removeAccents,
    String.toList_ofList]

/-! The names after one or more `other`. -/

theorem toList_otherName_succ (name : String) (n : Nat) :
    (otherName name (n + 1)).toList = "other".toList ++ ' ' :: (otherName name n).toList := by
  simp [otherName]

theorem words_otherName_succ (name : String) (n : Nat) :
    Text.words (otherName name (n + 1)).toList =
      "other".toList :: Text.words (otherName name n).toList := by
  rw [toList_otherName_succ]
  exact (Text.IsWord.of_isLower (by simp) (by decide)).words_append _

theorem camelCase_otherName_succ (name : String) (n : Nat) :
    ∃ rest, Text.camelCase (otherName name (n + 1)).toList = "other".toList ++ rest := by
  have lowered : "other".toList.map Char.toLower = "other".toList := by decide
  rw [Text.camelCase, words_otherName_succ]
  refine ⟨(Text.words (otherName name n).toList).flatMap
    fun word => Text.capitalize (word.map Char.toLower), ?_⟩
  show "other".toList.map Char.toLower ++ _ = _
  rw [lowered]

/-- After an `other` no name is reserved and none starts with a digit. -/
theorem toList_cleanIdentifier_otherName_succ (name : String) (n : Nat) :
    (cleanIdentifier (otherName name (n + 1))).toList =
      Text.camelCase (otherName name (n + 1)).toList := by
  have raw : replacement? (otherName name (n + 1)) = none := by
    rw [← String.ofList_toList (s := otherName name (n + 1)), toList_otherName_succ]
    exact replacement?_of_other_append _
  obtain ⟨rest, camel⟩ := camelCase_otherName_succ name n
  have cased : replacement? (otherName name (n + 1)).camelCase = none := by
    rw [String.camelCase, camel]
    exact replacement?_of_other_append rest
  have unspelled : spellLeadingDigit ("other".toList ++ rest) = "other".toList ++ rest := rfl
  simp only [cleanIdentifier, raw, cased]
  rw [String.camelCase, camel, String.toList_ofList, String.toList_ofList, unspelled]

theorem length_cleanIdentifier_otherName_succ (name : String) (n : Nat) :
    (cleanIdentifier (otherName name (n + 1))).length =
      5 * (n + 1) + (Text.words name.toList).flatten.length := by
  rw [← String.length_toList, toList_cleanIdentifier_otherName_succ, Text.length_camelCase]
  have five : "other".toList.length = 5 := by decide
  induction n with
  | zero =>
      rw [words_otherName_succ, List.flatten_cons, List.length_append, five]
      rfl
  | succ n ih =>
      rw [words_otherName_succ, List.flatten_cons, List.length_append, ih, five]
      omega

theorem cleanIdentifier_otherName_succ_ne_empty (name : String) (n : Nat) :
    cleanIdentifier (otherName name (n + 1)) ≠ "" := by
  intro empty
  have long := length_cleanIdentifier_otherName_succ name n
  rw [empty, String.length_empty] at long
  omega

theorem cleanIdentifier_otherName_succ_injective (name : String) :
    Function.Injective fun n => cleanIdentifier (otherName name (n + 1)) := by
  intro m n same
  have lengths := congrArg String.length same
  simp only [length_cleanIdentifier_otherName_succ] at lengths
  omega

theorem isIdentifier_cleanIdentifier_lower {word : List Char} (some : word ≠ [])
    (lower : ∀ c ∈ word, c.isLower = true) {name : String} {rest : List Char}
    (split : name.toList = word ++ ' ' :: rest) :
    isIdentifier (cleanIdentifier name).toList = true := by
  refine isIdentifier_cleanIdentifier fun empty => ?_
  have long := Text.length_camelCase name.toList
  rw [empty, split, (Text.IsWord.of_isLower lower some).words_append, List.flatten_cons,
    List.length_append, List.length_nil] at long
  have positive := List.length_pos_iff.mpr some
  omega

/-! Identifiers that are not in use. -/

/-- An identifier that may be given to a name. -/
def IsFree (seen : List String) (key : String) : Prop :=
  isIdentifier key.toList = true ∧ key ∉ seen

theorem isFree_cleanIdentifier_iff {name : String} {seen : List String} :
    IsFree seen (cleanIdentifier name) ↔
      cleanIdentifier name ≠ "" ∧ cleanIdentifier name ∉ seen := by
  refine and_congr_left fun _ => ⟨?_, (cleanIdentifier_cases name).resolve_left⟩
  intro identifier empty
  rw [empty] at identifier
  cases identifier

/--
What is derived for a name, with one more `other` in front of it as long as that is empty or in
use; and how many of them that takes.
-/
inductive Derives (seen : List String) : (name : String) → (others : Nat) → (key : String) → Prop
  | found {name : String} : cleanIdentifier name ≠ "" → cleanIdentifier name ∉ seen →
      Derives seen name 0 (cleanIdentifier name)
  | again {name key : String} {others : Nat} :
      cleanIdentifier name = "" ∨ cleanIdentifier name ∈ seen →
      Derives seen ("other " ++ name) others key → Derives seen name (others + 1) key

namespace Derives

variable {name key : String} {seen : List String} {others : Nat}

theorem isFree (derives : Derives seen name others key) : IsFree seen key := by
  induction derives with
  | found some unused => exact isFree_cleanIdentifier_iff.mpr ⟨some, unused⟩
  | again _ _ ih => exact ih

theorem replacement?_eq_none (derives : Derives seen name others key) :
    replacement? key = none := by
  induction derives with
  | found _ _ => exact replacement?_cleanIdentifier _
  | again _ _ ih => exact ih

/-- The search derives an identifier if it goes far enough to meet one that is free. -/
theorem firstFree {left tried bound : Nat} (within : bound ≤ left)
    (met : ∃ n ≤ bound, IsFree seen (cleanIdentifier (otherName name (tried + n)))) :
    ∃ n ≤ bound, Derives seen (otherName name tried) n (firstFree name seen left tried) := by
  induction left generalizing tried bound with
  | zero =>
      obtain ⟨n, few, free⟩ := met
      obtain rfl : n = 0 := by omega
      obtain ⟨some, unused⟩ := isFree_cleanIdentifier_iff.mp free
      exact ⟨0, few, .found some unused⟩
  | succ left ih =>
      rw [Naming.firstFree]
      split
      · rename_i taken
        rw [Bool.or_eq_true, String.isEmpty_iff, List.contains_iff_mem] at taken
        obtain ⟨n, few, free⟩ := met
        -- The candidate that was just tried is not the free one.
        cases n with
        | zero =>
            obtain ⟨some, unused⟩ := isFree_cleanIdentifier_iff.mp free
            exact absurd taken (not_or.mpr ⟨some, unused⟩)
        | succ n =>
            obtain ⟨bound, rfl⟩ : ∃ less, bound = less + 1 := ⟨bound - 1, by omega⟩
            have later : ∃ n ≤ bound,
                IsFree seen (cleanIdentifier (otherName name (tried + 1 + n))) :=
              ⟨n, by omega, by rwa [Nat.add_assoc, Nat.add_comm 1]⟩
            obtain ⟨others, fewer, derives⟩ := ih (by omega) later
            exact ⟨others + 1, by omega, .again taken derives⟩
      · rename_i untaken
        rw [Bool.or_eq_true, String.isEmpty_iff, List.contains_iff_mem, not_or] at untaken
        exact ⟨0, Nat.zero_le _, .found untaken.1 untaken.2⟩

end Derives

/-- Of one more candidate than there are names in use, one is free. -/
theorem exists_isFree (name : String) (seen : List String) :
    ∃ n ≤ seen.toFinset.card + 1, IsFree seen (cleanIdentifier (otherName name n)) := by
  by_contra taken
  push Not at taken
  let candidates := (List.range (seen.toFinset.card + 1)).map fun n =>
    cleanIdentifier (otherName name (n + 1))
  have distinct : candidates.Nodup :=
    List.Nodup.map (cleanIdentifier_otherName_succ_injective name) List.nodup_range
  have used : candidates.toFinset ⊆ seen.toFinset := by
    intro key member
    obtain ⟨n, below, rfl⟩ := List.mem_map.mp (List.mem_toFinset.mp member)
    have small := List.mem_range.mp below
    rw [List.mem_toFinset]
    by_contra unused
    exact taken (n + 1) (by omega) (isFree_cleanIdentifier_iff.mpr
      ⟨cleanIdentifier_otherName_succ_ne_empty name n, unused⟩)
  have tooMany := Finset.card_le_card used
  rw [List.toFinset_card_of_nodup distinct, List.length_map, List.length_range] at tooMany
  omega

theorem derives_uniqueIdentifier (name : String) (seen : List String) :
    ∃ others ≤ seen.toFinset.card + 1,
      Derives seen name others (uniqueIdentifier name seen).1 := by
  have met : ∃ n ≤ seen.toFinset.card + 1, IsFree seen (cleanIdentifier (otherName name (0 + n))) := by
    simpa only [Nat.zero_add] using exists_isFree name seen
  exact Derives.firstFree (Nat.succ_le_succ (List.toFinset_card_le seen)) met

/-! Identifiers that are given one after the other. -/

/-- Different identifiers that were not in use before and all are after. -/
structure Given (seen keys seen' : List String) : Prop where
  identifiers : ∀ key ∈ keys, isIdentifier key.toList = true
  unreserved : ∀ key ∈ keys, replacement? key = none
  distinct : keys.Nodup
  unused : ∀ key ∈ keys, key ∉ seen
  used : seen' = seen ++ keys

namespace Given

theorem nil (seen : List String) : Given seen [] seen :=
  ⟨by simp, by simp, by simp, by simp, by simp⟩

theorem remember {key : String} {seen : List String} (free : IsFree seen key)
    (unreserved : replacement? key = none) : Given seen [key] (remember key seen) := by
  have after : Naming.remember key seen = seen ++ [key] := by
    rw [Naming.remember, if_neg (by simpa using free.2)]
  exact ⟨by simpa using free.1, by simpa using unreserved, by simp, by simpa using free.2, after⟩

theorem uniqueIdentifier (name : String) (seen : List String) :
    Given seen [(uniqueIdentifier name seen).1] (uniqueIdentifier name seen).2 := by
  obtain ⟨_, -, derives⟩ := derives_uniqueIdentifier name seen
  exact .remember derives.isFree derives.replacement?_eq_none

theorem append {seen seen' seen'' first second : List String} (before : Given seen first seen')
    (after : Given seen' second seen'') : Given seen (first ++ second) seen'' := by
  have apart : ∀ key ∈ second, key ∉ seen ++ first := before.used ▸ after.unused
  refine ⟨?_, ?_, ?_, ?_, ?_⟩
  · exact List.forall_mem_append.mpr ⟨before.identifiers, after.identifiers⟩
  · exact List.forall_mem_append.mpr ⟨before.unreserved, after.unreserved⟩
  · refine List.nodup_append.mpr ⟨before.distinct, after.distinct, ?_⟩
    rintro key early other late rfl
    exact apart key late (List.mem_append_right _ early)
  · exact List.forall_mem_append.mpr
      ⟨before.unused, fun key member inside => apart key member (List.mem_append_left _ inside)⟩
  · rw [after.used, before.used, List.append_assoc]

theorem sublist {seen keys seen' some : List String} (given : Given seen keys seen')
    (chosen : some.Sublist keys) : Given seen some (seen ++ some) :=
  ⟨fun key member => given.identifiers key (chosen.subset member),
    fun key member => given.unreserved key (chosen.subset member), given.distinct.sublist chosen,
    fun key member => given.unused key (chosen.subset member), rfl⟩

theorem not_mem_replacements {seen keys seen' : List String} (given : Given seen keys seen') :
    ∀ key ∈ keys, key ∉ replacements.map Prod.fst :=
  fun key member => Naming.not_mem_replacements (given.unreserved key member)

end Given

/-- What names are given one after the other. -/
def identifiersInTurn (seen : List String) : List String → List String
  | [] => []
  | name :: names =>
      (uniqueIdentifier name seen).1 :: identifiersInTurn (uniqueIdentifier name seen).2 names

theorem identifiersInTurn_append (seen first second : List String) :
    identifiersInTurn seen (first ++ second) = identifiersInTurn seen first ++
      identifiersInTurn (seen ++ identifiersInTurn seen first) second := by
  induction first generalizing seen with
  | nil => simp [identifiersInTurn]
  | cons name first ih =>
      have after := (Given.uniqueIdentifier name seen).used
      rw [List.cons_append, identifiersInTurn, identifiersInTurn, ih, after, List.append_assoc]
      rfl

/--
A name is given an identifier after one `other` more than there are names in use, at the latest. The
identifier is usable, neither reserved nor in use before, and alone comes to be in use.
-/
theorem uniqueIdentifier_fresh (name : String) (seen : List String) :
    ∃ key, uniqueIdentifier name seen = (key, seen ++ [key]) ∧
      (∃ others ≤ seen.toFinset.card + 1, Derives seen name others key) ∧
      isIdentifier key.toList = true ∧ key ∉ seen ∧ key ∉ replacements.map Prod.fst := by
  obtain ⟨others, few, derives⟩ := derives_uniqueIdentifier name seen
  refine ⟨_, Prod.ext rfl (Given.uniqueIdentifier name seen).used, ⟨others, few, derives⟩,
    derives.isFree.1, derives.isFree.2, not_mem_replacements derives.replacement?_eq_none⟩

end ApiCompiler.Naming
