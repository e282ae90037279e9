import Mathlib.Data.Nat.Init
import Mathlib.Logic.Function.Basic
import ApiCompiler.Text.SpelledNumber

/-!
Names of numbers: small letters with single blanks and hyphens between them. A name is read from
left to right, word by word, and what is read is the number again; no two numbers share a name.
-/

namespace ApiCompiler.Text

/-! Words of a name. -/

def isNumeralGap (c : Char) : Bool :=
  c = ' ' || c = '-'

/-- The words of a name of a number. -/
def numerals (name : String) : List String :=
  (name.toList.splitOnP isNumeralGap).map String.ofList

theorem numerals_append {separator : String} {c : Char} (single : separator.toList = [c])
    (gap : isNumeralGap c = true) (first second : String) :
    numerals (first ++ separator ++ second) = numerals first ++ numerals second := by
  have letters : (first ++ separator ++ second).toList = first.toList ++ c :: second.toList := by
    simp [single]
  rw [numerals, letters, List.splitOnP_append_cons _ _ gap, List.map_append, numerals, numerals]

/-- The words for what is left of a number; nothing is left of it when it ends in zeros. -/
def remainderNumerals (n : Nat) : List String :=
  if n = 0 then [] else numerals (spellNat n)

theorem remainderNumerals_cases {P : Nat → List String → Prop} {n : Nat} (none : P 0 [])
    (spelled : P n (numerals (spellNat n))) : P n (remainderNumerals n) := by
  rw [remainderNumerals]
  split
  · rename_i zero
    exact zero ▸ none
  · exact spelled

def numeralWords : List String :=
  ones ++ tens.drop 2 ++ "hundred" :: scales.map Prod.snd

theorem numerals_of_mem : ∀ word ∈ numeralWords, numerals word = [word] := by
  decide +kernel

theorem lower_of_mem_numeralWords {word : String} (member : word ∈ numeralWords) :
    word ≠ "" ∧ ∀ c ∈ word.toList, c.isLower = true := by
  have all : ∀ word ∈ numeralWords, word ≠ "" ∧ word.toList.all Char.isLower = true := by
    decide
  obtain ⟨some, lower⟩ := all word member
  exact ⟨some, List.all_eq_true.mp lower⟩

theorem named_ones_mem : ∀ n < 20, named ones n ∈ numeralWords := by
  decide

theorem named_tens_mem : ∀ n < 10, 2 ≤ n → named tens n ∈ numeralWords := by
  decide

theorem scale_snd_mem : ∀ scale ∈ scales, scale.2 ∈ numeralWords := by
  decide

section Forms

variable {n : Nat}

theorem numerals_of_lt_twenty (small : n < 20) : numerals (spellNat n) = [named ones n] := by
  rw [spellNat, if_pos small, numerals_of_mem _ (named_ones_mem n small)]

theorem numerals_of_lt_hundred (large : 20 ≤ n) (small : n < 100) :
    numerals (spellNat n) = named tens (n / 10) :: remainderNumerals (n % 10) := by
  have ten := numerals_of_mem _ (named_tens_mem (n / 10) (by omega) (by omega))
  rw [spellNat, if_neg (by omega), if_pos small, remainderNumerals]
  split
  · exact ten
  · rw [numerals_append (c := '-') rfl rfl, ten, numerals_of_lt_twenty (by omega),
      numerals_of_mem _ (named_ones_mem (n % 10) (by omega))]
    rfl

theorem numerals_of_lt_thousand (large : 100 ≤ n) (small : n < 1000) :
    numerals (spellNat n) =
      named ones (n / 100) :: "hundred" :: remainderNumerals (n % 100) := by
  have one := numerals_of_mem _ (named_ones_mem (n / 100) (by omega))
  have hundred : numerals (named ones (n / 100) ++ " hundred") =
      [named ones (n / 100), "hundred"] := by
    have cut : named ones (n / 100) ++ " hundred" = named ones (n / 100) ++ " " ++ "hundred" := by
      rw [String.append_assoc]
      rfl
    rw [cut, numerals_append (c := ' ') rfl rfl, one, numerals_of_mem "hundred" (by decide)]
    rfl
  rw [spellNat, if_neg (by omega), if_neg (by omega), dif_pos small, remainderNumerals]
  dsimp only
  split
  · exact hundred
  · rw [numerals_append (c := ' ') rfl rfl, hundred]
    rfl

theorem numerals_of_large (large : 1000 ≤ n) :
    numerals (spellNat n) = numerals (spellNat (n / (scale n large).1)) ++
      (scale n large).2 :: remainderNumerals (n % (scale n large).1) := by
  have own := numerals_of_mem _ (scale_snd_mem _ (scale_mem large))
  rw [spellNat, if_neg (by omega), if_neg (by omega), dif_neg (by omega), remainderNumerals]
  dsimp only
  split
  · rw [numerals_append (c := ' ') rfl rfl, own]
  · rw [numerals_append (c := ' ') rfl rfl, numerals_append (c := ' ') rfl rfl, own,
      List.append_assoc]
    rfl

end Forms

theorem mem_numeralWords {n : Nat} {word : String} (member : word ∈ numerals (spellNat n)) :
    word ∈ numeralWords := by
  induction n using Nat.strong_induction_on with
  | _ n ih =>
      have remainder {k : Nat} (below : k < n) (inside : word ∈ remainderNumerals k) :
          word ∈ numeralWords :=
        remainderNumerals_cases (P := fun _ words => word ∈ words → word ∈ numeralWords)
          (absurd · List.not_mem_nil) (ih k below) inside
      by_cases twenty : n < 20
      · rw [numerals_of_lt_twenty twenty, List.mem_singleton] at member
        exact member ▸ named_ones_mem n twenty
      · by_cases hundred : n < 100
        · rw [numerals_of_lt_hundred (by omega) hundred, List.mem_cons] at member
          rcases member with rfl | later
          · exact named_tens_mem (n / 10) (by omega) (by omega)
          · exact remainder (by omega) later
        · by_cases thousand : n < 1000
          · rw [numerals_of_lt_thousand (by omega) thousand, List.mem_cons, List.mem_cons] at member
            rcases member with rfl | rfl | later
            · exact named_ones_mem (n / 100) (by omega)
            · decide
            · exact remainder (by omega) later
          · have large : 1000 ≤ n := Nat.le_of_not_lt thousand
            have more := one_lt_scale large
            have within := scale_le large
            rw [numerals_of_large large, List.mem_append, List.mem_cons] at member
            rcases member with head | rfl | later
            · exact ih _ (Nat.div_lt_self (by omega) more) head
            · exact scale_snd_mem _ (scale_mem large)
            · exact remainder (Nat.lt_of_lt_of_le (Nat.mod_lt n (scale_pos large)) within) later

theorem isLower_head_spellNat (n : Nat) : (spellNat n).toList.head?.any Char.isLower = true := by
  have first (word : List Char) (member : word ∈ (spellNat n).toList.splitOnP isNumeralGap) :
      String.ofList word ∈ numeralWords :=
    mem_numeralWords (List.mem_map_of_mem member)
  have blank : String.ofList [] ∉ numeralWords := by decide
  cases text : (spellNat n).toList with
  | nil => exact absurd (first [] (by simp [text])) blank
  | cons c rest =>
      rw [text, List.splitOnP_cons_eq_if_modifyHead] at first
      split at first
      · exact absurd (first [] List.mem_cons_self) blank
      · obtain ⟨part, parts, split⟩ := List.exists_cons_of_ne_nil
          (List.splitOnP_ne_nil isNumeralGap rest)
        rw [split] at first
        have small := lower_of_mem_numeralWords (first (c :: part) List.mem_cons_self)
        exact small.2 c (by simp)

/-! Reading. -/

/-- A number that is being read: what the scales have closed, and the words since the last scale. -/
structure Tally where
  closed : Nat
  group : Nat

def numeralValue (word : String) : Nat :=
  if ones.contains word then ones.idxOf word else 10 * tens.idxOf word

/--
What a word adds. A scale counts the words since the scale before it; the largest one counts all
that stands before it, as the only one that heads with scales of their own have.
-/
def Tally.read (tally : Tally) (word : String) : Tally :=
  if word = "hundred" then { tally with group := tally.group * 100 }
  else
    match scales.find? fun scale => scale.2 = word with
    | none => { tally with group := tally.group + numeralValue word }
    | some scale =>
        if scale.1 = Nat.pow 10 12 then ⟨(tally.closed + tally.group) * scale.1, 0⟩
        else ⟨tally.closed + tally.group * scale.1, 0⟩

def Tally.total (tally : Tally) : Nat :=
  tally.closed + tally.group

namespace Tally

variable (tally : Tally)

theorem read_value {word : String} (notHundred : word ≠ "hundred")
    (noScale : (scales.find? fun scale => scale.2 = word) = none) :
    tally.read word = { tally with group := tally.group + numeralValue word } := by
  rw [read, if_neg notHundred, noScale]

theorem read_one {n : Nat} (small : n < 20) :
    tally.read (named ones n) = { tally with group := tally.group + n } := by
  have plain : ∀ n < 20, named ones n ≠ "hundred" ∧
      (scales.find? fun scale => scale.2 = named ones n) = none ∧
      numeralValue (named ones n) = n := by
    decide
  obtain ⟨notHundred, noScale, value⟩ := plain n small
  rw [tally.read_value notHundred noScale, value]

theorem read_ten {n : Nat} (some : 2 ≤ n) (small : n < 10) :
    tally.read (named tens n) = { tally with group := tally.group + 10 * n } := by
  have plain : ∀ n < 10, 2 ≤ n → named tens n ≠ "hundred" ∧
      (scales.find? fun scale => scale.2 = named tens n) = none ∧
      numeralValue (named tens n) = 10 * n := by
    decide
  obtain ⟨notHundred, noScale, value⟩ := plain n small some
  rw [tally.read_value notHundred noScale, value]

theorem read_hundred : tally.read "hundred" = { tally with group := tally.group * 100 } :=
  if_pos rfl

theorem read_scale {scale : Nat × String} (member : scale ∈ scales) :
    tally.read scale.2 =
      if scale.1 = Nat.pow 10 12 then ⟨tally.total * scale.1, 0⟩
      else ⟨tally.closed + tally.group * scale.1, 0⟩ := by
  have own : ∀ scale ∈ scales, scale.2 ≠ "hundred" ∧
      (scales.find? fun other => other.2 = scale.2) = some scale := by
    decide
  obtain ⟨notHundred, found⟩ := own scale member
  rw [read, if_neg notHundred, found, total]

/-! Names read word by word. -/

def readAll (words : List String) : Tally :=
  words.foldl read tally

theorem readAll_nil : tally.readAll [] = tally := rfl

theorem readAll_cons (word : String) (words : List String) :
    tally.readAll (word :: words) = (tally.read word).readAll words := rfl

theorem readAll_append (first second : List String) :
    tally.readAll (first ++ second) = (tally.readAll first).readAll second :=
  List.foldl_append

section Remainders

variable {tally : Tally} {n : Nat}

theorem readAll_remainder
    (spelled : tally.readAll (numerals (spellNat n)) = { tally with group := tally.group + n }) :
    tally.readAll (remainderNumerals n) = { tally with group := tally.group + n } :=
  remainderNumerals_cases (P := fun n words =>
    tally.readAll words = { tally with group := tally.group + n }) rfl spelled

theorem total_readAll_remainder
    (spelled : (tally.readAll (numerals (spellNat n))).total = tally.total + n) :
    (tally.readAll (remainderNumerals n)).total = tally.total + n :=
  remainderNumerals_cases (P := fun n words => (tally.readAll words).total = tally.total + n) rfl
    spelled

end Remainders

variable {n : Nat}

theorem readAll_of_lt_hundred (small : n < 100) :
    tally.readAll (numerals (spellNat n)) = { tally with group := tally.group + n } := by
  have single {tally : Tally} {n : Nat} (small : n < 20) :
      tally.readAll (numerals (spellNat n)) = { tally with group := tally.group + n } := by
    rw [numerals_of_lt_twenty small, readAll_cons, read_one _ small, readAll_nil]
  by_cases twenty : n < 20
  · exact single twenty
  · have parts : 10 * (n / 10) + n % 10 = n := Nat.div_add_mod n 10
    rw [numerals_of_lt_hundred (by omega) small, readAll_cons, read_ten _ (by omega) (by omega),
      readAll_remainder (single (by omega)), Nat.add_assoc, parts]

theorem readAll_of_lt_thousand (closed : Nat) (small : n < 1000) :
    readAll ⟨closed, 0⟩ (numerals (spellNat n)) = ⟨closed, n⟩ := by
  by_cases hundred : n < 100
  · rw [readAll_of_lt_hundred _ hundred, Nat.zero_add]
  · have parts : (0 + n / 100) * 100 + n % 100 = n := by omega
    rw [numerals_of_lt_thousand (by omega) small, readAll_cons, readAll_cons,
      read_one _ (by omega), read_hundred, readAll_remainder (readAll_of_lt_hundred _ (by omega)),
      parts]

end Tally

/-! Scales. -/

section Scales

variable {n : Nat} (large : 1000 ≤ n)

theorem scale_of_le (top : Nat.pow 10 12 ≤ n) : (scale n large).1 = Nat.pow 10 12 := by
  have found : scale? n = some (Nat.pow 10 12, "trillion") :=
    List.find?_cons_of_pos (decide_eq_true top)
  rw [scale?_eq_some large, Option.some.injEq] at found
  rw [found]

/-- Below the largest scale, heads are less than a thousand. -/
theorem scale_of_lt (below : n < Nat.pow 10 12) :
    (scale n large).1 ≠ Nat.pow 10 12 ∧ n / (scale n large).1 < 1000 := by
  have found := scale?_eq_some large
  rw [scale?, scales, List.find?_cons_of_neg (by simpa using below)] at found
  by_cases billion : Nat.pow 10 9 ≤ n
  · rw [List.find?_cons_of_pos (by simpa using billion), Option.some.injEq] at found
    rw [← found]
    exact ⟨by decide, Nat.div_lt_of_lt_mul below⟩
  · rw [List.find?_cons_of_neg (by simpa using billion)] at found
    by_cases million : Nat.pow 10 6 ≤ n
    · rw [List.find?_cons_of_pos (by simpa using million), Option.some.injEq] at found
      rw [← found]
      exact ⟨by decide, Nat.div_lt_of_lt_mul (Nat.lt_of_not_le billion)⟩
    · rw [List.find?_cons_of_neg (by simpa using million),
        List.find?_cons_of_pos (by simpa using large), Option.some.injEq] at found
      rw [← found]
      exact ⟨by decide, Nat.div_lt_of_lt_mul (Nat.lt_of_not_le million)⟩

end Scales

namespace Tally

variable {n : Nat}

/-- A name is read whole, if its head is closed by its scale and the rest is read whole. -/
theorem total_readAll_of_large (large : 1000 ≤ n) (closed : Nat)
    (head : (readAll ⟨closed, 0⟩ (numerals (spellNat (n / (scale n large).1)))).read
        (scale n large).2 = ⟨closed + n / (scale n large).1 * (scale n large).1, 0⟩)
    (rest : ∀ closed, (readAll ⟨closed, 0⟩
        (numerals (spellNat (n % (scale n large).1)))).total = closed + n % (scale n large).1) :
    (readAll ⟨closed, 0⟩ (numerals (spellNat n))).total = closed + n := by
  have parts : n / (scale n large).1 * (scale n large).1 + n % (scale n large).1 = n :=
    Nat.div_add_mod' n _
  rw [numerals_of_large large, readAll_append, readAll_cons, head,
    total_readAll_remainder (by rw [rest, total, Nat.add_zero]), total, Nat.add_zero,
    Nat.add_assoc, parts]

/-- Below the largest scale a name adds its number to what stands before it. -/
theorem total_readAll_of_lt (closed : Nat) (below : n < Nat.pow 10 12) :
    (readAll ⟨closed, 0⟩ (numerals (spellNat n))).total = closed + n := by
  induction n using Nat.strong_induction_on generalizing closed with
  | _ n ih =>
      by_cases thousand : n < 1000
      · rw [readAll_of_lt_thousand closed thousand, total]
      · have large : 1000 ≤ n := Nat.le_of_not_lt thousand
        obtain ⟨notTop, head⟩ := scale_of_lt large below
        have rest : n % (scale n large).1 < n :=
          Nat.lt_of_lt_of_le (Nat.mod_lt n (scale_pos large)) (scale_le large)
        refine total_readAll_of_large large closed ?_ fun closed =>
          ih _ rest closed (Nat.lt_trans rest below)
        rw [readAll_of_lt_thousand closed head, read_scale _ (scale_mem large), if_neg notTop]

/-- The largest scale counts heads that have it themselves, so these are read first. -/
theorem total_readAll (n : Nat) : (readAll ⟨0, 0⟩ (numerals (spellNat n))).total = n := by
  induction n using Nat.strong_induction_on with
  | _ n ih =>
      by_cases below : n < Nat.pow 10 12
      · rw [total_readAll_of_lt 0 below, Nat.zero_add]
      · -- only the head can be as large as this again; the rest lies below the scale
        have top : Nat.pow 10 12 ≤ n := Nat.le_of_not_lt below
        have large : 1000 ≤ n := Nat.le_trans (by decide) top
        have own : (scale n large).1 = Nat.pow 10 12 := scale_of_le large top
        have rest : n % (scale n large).1 < Nat.pow 10 12 :=
          own ▸ Nat.mod_lt n (scale_pos large)
        have head : n / (scale n large).1 < n :=
          Nat.div_lt_self (Nat.lt_of_lt_of_le (by decide) large) (one_lt_scale large)
        have whole := total_readAll_of_large large 0
          (by rw [read_scale _ (scale_mem large), if_pos own, ih _ head, Nat.zero_add])
          fun closed => total_readAll_of_lt closed rest
        rw [whole, Nat.zero_add]

end Tally

/-! Integers. -/

/-- The integer that a name stands for. -/
def readInt (name : String) : Int :=
  let words := numerals name
  if words.head? = some "minus" then -(Tally.readAll ⟨0, 0⟩ words.tail).total
  else (Tally.readAll ⟨0, 0⟩ words).total

theorem numerals_minus (n : Nat) :
    numerals ("minus " ++ spellNat n) = "minus" :: numerals (spellNat n) := by
  have minus : numerals "minus" = ["minus"] := by decide
  have cut : "minus " ++ spellNat n = "minus" ++ " " ++ spellNat n := rfl
  rw [cut, numerals_append (c := ' ') rfl rfl, minus]
  rfl

theorem readInt_spellInt (n : Int) : readInt (spellInt n) = n := by
  cases n with
  | ofNat n =>
      have unsigned : (numerals (spellNat n)).head? ≠ some "minus" := fun first =>
        absurd (mem_numeralWords (List.mem_of_head? first)) (by decide)
      rw [spellInt, readInt]
      simp only [if_neg unsigned, Tally.total_readAll]
      rfl
  | negSucc n =>
      rw [spellInt, readInt]
      simp only [numerals_minus, List.head?_cons, if_true, List.tail_cons, Tally.total_readAll]
      rfl

theorem mem_numerals_spellInt {n : Int} {word : String} (member : word ∈ numerals (spellInt n)) :
    word ≠ "" ∧ ∀ c ∈ word.toList, c.isLower = true := by
  cases n with
  | ofNat n => exact lower_of_mem_numeralWords (mem_numeralWords member)
  | negSucc n =>
      rw [spellInt, numerals_minus] at member
      rcases List.mem_cons.mp member with rfl | later
      · exact ⟨by decide, List.all_eq_true.mp (by decide)⟩
      · exact lower_of_mem_numeralWords (mem_numeralWords later)

/--
Every integer has a name of its own: from a thousand on a scale is found, the name is made of words
in small letters with one blank or hyphen between them, and no other integer has it.
-/
theorem spellInt_unambiguous :
    (∀ n, 1000 ≤ n → (scale? n).isSome = true) ∧
      (∀ n, spellInt n ≠ "" ∧
        ∀ word ∈ numerals (spellInt n), word ≠ "" ∧ ∀ c ∈ word.toList, c.isLower = true) ∧
      Function.Injective spellInt := by
  refine ⟨fun n large => isSome_scale? large, fun n => ⟨fun none => ?_, ?_⟩,
    Function.LeftInverse.injective readInt_spellInt⟩
  · have blank : "" ∈ numerals (spellInt n) := by
      rw [none]
      decide
    exact (mem_numerals_spellInt blank).1 rfl
  · exact fun word member => mem_numerals_spellInt member

/-- A thousand of the largest scale is told apart from a thousand behind it. -/
theorem spellInt_unambiguous_thousand_trillion :
    1000 ≤ Nat.pow 10 15 ∧ (scale? (Nat.pow 10 15)).isSome = true ∧
      spellInt (Nat.pow 10 15) ≠ spellInt (Nat.pow 10 12 + 1000) :=
  ⟨by decide, spellInt_unambiguous.1 _ (by decide), fun same =>
    absurd (spellInt_unambiguous.2.2 same) (by decide)⟩

end ApiCompiler.Text
