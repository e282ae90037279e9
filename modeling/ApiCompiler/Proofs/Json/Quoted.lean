import Mathlib.Tactic.SplitIfs
import ApiCompiler.Json.Reader
import ApiCompiler.Text.Quoted

/-!
A text in double quotes is read back as it was.
-/

namespace ApiCompiler.Json

open Text

theorem asciiDigit?_hexDigit {n : Nat} (digit : n < 16) : asciiDigit? 16 (hexDigit n) = some n := by
  have all : ∀ n < 16, asciiDigit? 16 (hexDigit n) = some n := by decide
  exact all n digit

theorem length_hexDigits (n : Nat) : (hexDigits 4 n).length = 4 := by simp [hexDigits]

theorem hexUnit?_hexDigits {n : Nat} (small : n < 0x10000) (rest : List Char) :
    hexUnit? (hexDigits 4 n ++ rest) = some n := by
  have size := length_hexDigits n
  rw [hexUnit?, if_pos (by simp [size]), List.take_append_of_le_length (by omega),
    List.take_of_length_le (by omega)]
  have digit (n : Nat) : asciiDigit? 16 (hexDigit (n % 16)) = some (n % 16) :=
    asciiDigit?_hexDigit (Nat.mod_lt _ (by decide))
  simp only [hexDigits, List.nil_append, List.cons_append, List.mapM_cons, List.mapM_nil, digit]
  refine congrArg some ?_
  simp only [ofDigits, List.foldl_cons, List.foldl_nil]
  omega

theorem readQuoted_escape {opening done rest : List Char} {fuel : Nat} {c plain : Char}
    (notUnit : c ≠ 'u') (escape : simpleEscape? c = some plain) :
    readQuoted opening (fuel + 1) done ('\\' :: c :: rest) =
      readQuoted opening fuel (plain :: done) rest := by
  rw [readQuoted]
  · simp [escape]
  · exact notUnit

theorem readQuoted_plain {opening done rest : List Char} {fuel : Nat} {c : Char}
    (notQuote : c ≠ '"') (notBackslash : c ≠ '\\') (printable : ¬ c.toNat < 0x20) :
    readQuoted opening (fuel + 1) done (c :: rest) =
      readQuoted opening fuel (c :: done) rest := by
  rw [readQuoted]
  · simp [printable]
  · exact notQuote
  · exact fun same _ => notBackslash same
  · exact fun _ same _ => notBackslash same
  · exact fun _ _ same _ => notBackslash same

theorem readQuoted_unit {opening done rest : List Char} {fuel n : Nat} (small : n < 0x10000)
    (whole : n < 0xD800 ∨ 0xDFFF < n) (more : rest ≠ []) :
    readQuoted opening (fuel + 1) done ('\\' :: 'u' :: (hexDigits 4 n ++ rest)) =
      readQuoted opening fuel (Char.ofNat n :: done) rest := by
  have size := length_hexDigits n
  have enough : 4 < (hexDigits 4 n ++ rest).length := by
    have := List.length_pos_iff.mpr more
    rw [List.length_append, size]
    omega
  rw [readQuoted, if_pos enough, hexUnit?_hexDigits small]
  have notHigh : ¬ (0xD800 ≤ n ∧ n ≤ 0xDBFF) := by omega
  have notLow : ¬ (0xDC00 ≤ n ∧ n ≤ 0xDFFF) := by omega
  simp [notHigh, notLow, List.drop_left' size]

/-- A code point beyond the first 65536 is read from the two halves that it is escaped by. -/
theorem readQuoted_pair {opening done rest : List Char} {fuel n : Nat} (large : 0x10000 ≤ n)
    (small : n < 0x110000) (more : rest ≠ []) :
    readQuoted opening (fuel + 1) done (unitEscape n ++ rest) =
      readQuoted opening fuel (Char.ofNat n :: done) rest := by
  have high : 0xD800 + (n - 0x10000) / 0x400 < 0x10000 := by omega
  have low : 0xDC00 + (n - 0x10000) % 0x400 < 0x10000 := by omega
  have isHigh : 0xD800 ≤ 0xD800 + (n - 0x10000) / 0x400 ∧
      0xD800 + (n - 0x10000) / 0x400 ≤ 0xDBFF := by omega
  have isLow : 0xDC00 ≤ 0xDC00 + (n - 0x10000) % 0x400 ∧
      0xDC00 + (n - 0x10000) % 0x400 ≤ 0xDFFF := by omega
  have back : 0x10000 + (0xD800 + (n - 0x10000) / 0x400 - 0xD800) * 0x400 +
      (0xDC00 + (n - 0x10000) % 0x400 - 0xDC00) = n := by omega
  have length := List.length_pos_iff.mpr more
  rw [unitEscape, if_neg (Nat.not_lt.mpr large)]
  generalize 0xD800 + (n - 0x10000) / 0x400 = first at high isHigh back ⊢
  generalize 0xDC00 + (n - 0x10000) % 0x400 = second at low isLow back ⊢
  have pair : lowSurrogate? ('\\' :: 'u' :: (hexDigits 4 second ++ rest)) = .ok (some second) := by
    rw [lowSurrogate?, if_pos (by rw [List.length_append, length_hexDigits]; omega),
      hexUnit?_hexDigits low]
    simp [isLow]
  simp only [List.cons_append, List.append_assoc]
  rw [readQuoted, if_pos (by simp [length_hexDigits]), hexUnit?_hexDigits high]
  simp [isHigh, pair, back, List.drop_left' (length_hexDigits first),
    List.drop_left' (length_hexDigits second)]

theorem readQuoted_shortEscape {opening done rest escape : List Char} {fuel : Nat} {c : Char}
    (short : shortEscape? c = some escape) :
    readQuoted opening (fuel + 1) done (escape ++ rest) =
      readQuoted opening fuel (c :: done) rest := by
  have same {n : Nat} (code : c.toNat = n) : Char.ofNat n = c := by rw [← code, Char.ofNat_toNat]
  unfold shortEscape? at short
  split_ifs at short with quote backslash lineFeed carriageReturn tab formFeed backspace <;>
    cases short
  · subst quote
    exact readQuoted_escape (by decide) rfl
  · subst backslash
    exact readQuoted_escape (by decide) rfl
  · subst lineFeed
    exact readQuoted_escape (by decide) rfl
  · subst carriageReturn
    exact readQuoted_escape (by decide) rfl
  · subst tab
    exact readQuoted_escape (by decide) rfl
  · rw [← same formFeed]
    exact readQuoted_escape (by decide) rfl
  · rw [← same backspace]
    exact readQuoted_escape (by decide) rfl

/-- Only the quote, the backslash and control characters have short escapes. -/
theorem not_special_of_shortEscape? {c : Char} (short : shortEscape? c = none) :
    c ≠ '"' ∧ c ≠ '\\' := by
  unfold shortEscape? at short
  split_ifs at short with quote backslash
  exact ⟨quote, backslash⟩

theorem readQuoted_quoteChar (opening : List Char) (fuel : Nat) (done : List Char) (c : Char)
    {rest : List Char} (more : rest ≠ []) :
    readQuoted opening (fuel + 1) done (quoteChar c ++ rest) =
      readQuoted opening fuel (c :: done) rest := by
  rw [quoteChar]
  cases short : shortEscape? c with
  | some escape => exact readQuoted_shortEscape short
  | none =>
      obtain ⟨quote, backslash⟩ := not_special_of_shortEscape? short
      dsimp only
      split
      · rename_i control
        rw [unitEscape, if_pos (by omega), List.cons_append, List.cons_append,
          readQuoted_unit (by omega) (by omega) more, Char.ofNat_toNat]
      · rename_i printable
        exact readQuoted_plain quote backslash printable

theorem readQuoted_quoteAsciiChar (opening : List Char) (fuel : Nat) (done : List Char) (c : Char)
    {rest : List Char} (more : rest ≠ []) :
    readQuoted opening (fuel + 1) done (quoteAsciiChar c ++ rest) =
      readQuoted opening fuel (c :: done) rest := by
  rw [quoteAsciiChar]
  cases short : shortEscape? c with
  | some escape => exact readQuoted_shortEscape short
  | none =>
      obtain ⟨quote, backslash⟩ := not_special_of_shortEscape? short
      have same : Char.ofNat c.toNat = c := Char.ofNat_toNat c
      have valid : c.toNat < 0xD800 ∨ 0xDFFF < c.toNat ∧ c.toNat < 0x110000 := c.valid
      dsimp only
      split
      · rename_i printable
        simp only [Bool.and_eq_true, decide_eq_true_eq] at printable
        exact readQuoted_plain quote backslash (by omega)
      · rcases Nat.lt_or_ge c.toNat 0x10000 with small | large
        · rw [unitEscape, if_pos small, List.cons_append, List.cons_append,
            readQuoted_unit small (by omega) more, same]
        · rw [readQuoted_pair large (by omega) more, same]

/-- Each character is quoted by at least one. -/
theorem length_le_flatMap {quoted : Char → List Char} (some : ∀ c, quoted c ≠ [])
    (text : List Char) : text.length ≤ (text.flatMap quoted).length := by
  induction text with
  | nil => exact Nat.le_refl 0
  | cons c text ih =>
      have one := List.length_pos_iff.mpr (some c)
      rw [List.flatMap_cons, List.length_append, List.length_cons]
      omega

section Flat

variable {quoted : Char → List Char}
  (each : ∀ opening fuel done c rest, rest ≠ [] →
    readQuoted opening (fuel + 1) done (quoted c ++ rest) =
      readQuoted opening fuel (c :: done) rest)
include each

theorem readQuoted_flatMap (opening : List Char) {fuel : Nat} (done text rest : List Char)
    (enough : text.length < fuel) :
    readQuoted opening fuel done (text.flatMap quoted ++ '"' :: rest) =
      .ok (String.ofList (done.reverse ++ text), rest) := by
  induction text generalizing fuel done with
  | nil =>
      obtain ⟨fuel, rfl⟩ := Nat.exists_eq_succ_of_ne_zero (Nat.ne_of_gt enough)
      simp [readQuoted]
  | cons c text ih =>
      obtain ⟨fuel, rfl⟩ := Nat.exists_eq_succ_of_ne_zero (Nat.ne_of_gt (Nat.zero_lt_of_lt enough))
      rw [List.flatMap_cons, List.append_assoc, each _ _ _ _ _ (by simp),
        ih _ (by simpa using enough)]
      simp

end Flat

theorem readQuoted_flatMap_quoteChar (opening : List Char) {fuel : Nat} (done text rest : List Char)
    (enough : text.length < fuel) :
    readQuoted opening fuel done (text.flatMap quoteChar ++ '"' :: rest) =
      .ok (String.ofList (done.reverse ++ text), rest) :=
  readQuoted_flatMap (fun _ _ _ _ _ more => readQuoted_quoteChar _ _ _ _ more) _ _ _ _ enough

theorem ne_nil_of_shortEscape? {c : Char} {escape : List Char}
    (short : shortEscape? c = some escape) : escape ≠ [] := by
  unfold shortEscape? at short
  split_ifs at short <;> cases short <;> exact List.cons_ne_nil _ _

theorem quoteChar_ne_nil (c : Char) : quoteChar c ≠ [] := by
  rw [quoteChar]
  cases short : shortEscape? c with
  | some escape => exact ne_nil_of_shortEscape? short
  | none =>
      dsimp only
      split
      · rw [unitEscape]
        split <;> exact List.cons_ne_nil _ _
      · exact List.cons_ne_nil _ _

theorem quoteAsciiChar_ne_nil (c : Char) : quoteAsciiChar c ≠ [] := by
  rw [quoteAsciiChar]
  cases short : shortEscape? c with
  | some escape => exact ne_nil_of_shortEscape? short
  | none =>
      dsimp only
      split
      · exact List.cons_ne_nil _ _
      · rw [unitEscape]
        split <;> exact List.cons_ne_nil _ _

theorem read_of_readValue {rest : List Char} {value : Value}
    (whole : readValue (('"' :: rest).length + 1) ('"' :: rest) = .ok (value, [])) :
    read (String.ofList ('"' :: rest)) = .ok value := by
  rw [read, String.toList_ofList]
  -- a quote is neither a byte order mark nor space, so that `whole` is what is looked at
  split
  · rename_i given
    cases whole.symm.trans given
    rfl
  · rename_i given
    cases whole.symm.trans given
  · rename_i given
    cases whole.symm.trans given

/-- A text in quotes and ASCII is JSON for the text. -/
theorem read_quotedAscii (text : String) : read text.quotedAscii = .ok (.text text) := by
  have enough : text.toList.length < (text.toList.flatMap quoteAsciiChar ++ ['"']).length + 1 := by
    have one := length_le_flatMap quoteAsciiChar_ne_nil text.toList
    rw [List.length_append]
    omega
  have inside (opening : List Char) :
      readQuoted opening ((text.toList.flatMap quoteAsciiChar ++ ['"']).length + 1) []
        (text.toList.flatMap quoteAsciiChar ++ ['"']) = .ok (text, []) := by
    rw [readQuoted_flatMap (fun _ _ _ _ _ more => readQuoted_quoteAsciiChar _ _ _ _ more) opening []
      text.toList [] enough, List.reverse_nil, List.nil_append, String.ofList_toList]
  have value (fuel : Nat) : readValue (fuel + 1) (quoteAscii text.toList) = .ok (.text text, []) := by
    rw [quoteAscii, List.cons_append, readValue, inside]
    rfl
  exact read_of_readValue (value _)

end ApiCompiler.Json
