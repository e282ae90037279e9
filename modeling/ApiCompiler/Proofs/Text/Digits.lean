import ApiCompiler.Proofs.Text.Words
import ApiCompiler.Text.Digits

/-!
Numbers are read back from their decimal digits, unless there are too many of them.
-/

namespace ApiCompiler.Text

/-! Decimal digits. -/

theorem digit?_of_isDigit {c : Char} (digit : c.isDigit = true) :
    digit? c = some (c.toNat - '0'.toNat) := by
  obtain ⟨low, high⟩ := isDigit_iff.mp digit
  have ascii : (0x30 ≤ c.toNat && c.toNat < 0x30 + 10) = true := by
    rw [Bool.and_eq_true, decide_eq_true_iff, decide_eq_true_iff]
    omega
  have found : (decimalZeros.find? fun first => first ≤ c.toNat && c.toNat < first + 10) =
      some 0x30 := List.find?_cons_of_pos ascii
  rw [digit?, found]
  rfl

theorem not_isIntegerPadding_of_isDigit {c : Char} (digit : c.isDigit = true) :
    isIntegerPadding c = false := by
  have range := isDigit_iff.mp digit
  simp only [isIntegerPadding, isBlank, Bool.and_eq_false_iff, Bool.or_eq_false_iff,
    decide_eq_false_iff_not, beq_eq_false_iff_ne]
  omega

section Digits

variable {text : List Char} (digits : ∀ c ∈ text, c.isDigit = true)
include digits

theorem dropWhile_isIntegerPadding_of_digits : text.dropWhile isIntegerPadding = text := by
  cases text with
  | nil => rfl
  | cons c rest =>
      rw [List.dropWhile_cons_of_neg]
      rw [not_isIntegerPadding_of_isDigit (digits c List.mem_cons_self)]
      exact Bool.false_ne_true

theorem digitRun?_of_digits (some : text ≠ []) :
    digitRun? text = Option.some (text.map fun c => c.toNat - '0'.toNat) := by
  induction text with
  | nil => exact absurd rfl some
  | cons c rest ih =>
      rw [List.forall_mem_cons] at digits
      have first := digit?_of_isDigit digits.1
      cases rest with
      | nil => rw [digitRun?, first]; rfl
      | cons d rest =>
          have later := ih digits.2 (List.cons_ne_nil d rest)
          have plain : d ≠ '_' := by
            rintro rfl
            exact absurd (digits.2 '_' List.mem_cons_self) (by decide)
          rw [digitRun?.eq_def]
          split
          · rename_i same
            cases same
          · rename_i same
            cases same
          · rename_i same
            exact absurd (List.cons.inj (List.cons.inj same).2).1 plain
          · rename_i same
            obtain ⟨rfl, rfl⟩ := List.cons.inj same
            rw [first, later]
            rfl

theorem readInteger?_of_digits (some : text ≠ []) :
    readInteger? text =
      if text.length ≤ digitLimit then
        Option.some (ofDigits 10 (text.map fun c => c.toNat - '0'.toNat) : Int)
      else none := by
  have backwards : ∀ c ∈ text.reverse, c.isDigit = true := fun c inside =>
    digits c (List.mem_reverse.mp inside)
  have core : ((text.dropWhile isIntegerPadding).reverse.dropWhile isIntegerPadding).reverse =
      text := by
    rw [dropWhile_isIntegerPadding_of_digits digits,
      dropWhile_isIntegerPadding_of_digits backwards, List.reverse_reverse]
  have unsigned : ∀ c rest, text = c :: rest → c ≠ '-' ∧ c ≠ '+' := by
    rintro c rest rfl
    constructor <;> rintro rfl <;> exact absurd (digits _ List.mem_cons_self) (by decide)
  rw [readInteger?]
  dsimp only
  rw [core]
  split
  · exact absurd rfl (unsigned _ _ rfl).1
  · exact absurd rfl (unsigned _ _ rfl).2
  · rw [digitRun?_of_digits digits some, Option.bind_some, List.length_map]
    split <;> rfl

end Digits

/-! Numbers. -/

theorem isDigit_of_mem_decimal {n : Nat} {c : Char} (inside : c ∈ decimal n) : c.isDigit = true :=
  Nat.isDigit_of_mem_toDigits (by decide) (Nat.le_refl 10) inside

theorem decimal_ne_nil (n : Nat) : decimal n ≠ [] :=
  Nat.toDigits_ne_nil

theorem ofDigits_decimal (n : Nat) :
    ofDigits 10 ((decimal n).map fun c => c.toNat - '0'.toNat) = n := by
  have read := Nat.ofDigitChars_toDigits (n := n) (by decide : 1 < 10) (Nat.le_refl 10)
  rw [Nat.ofDigitChars] at read
  rw [ofDigits, decimal, List.foldl_map]
  simpa only [Nat.mul_comm] using read

/-- A number is read back from its decimal digits, unless there are too many of them. -/
theorem readInteger?_decimal (n : Nat) :
    readInteger? (decimal n) =
      if (decimal n).length ≤ digitLimit then some (n : Int) else none := by
  rw [readInteger?_of_digits (fun c inside => isDigit_of_mem_decimal inside) (decimal_ne_nil n),
    ofDigits_decimal]

end ApiCompiler.Text
