import ApiCompiler.Proofs.Text.Words

/-!
Texts that are their own camel case: those whose words can be told apart again. Words of one letter
side by side cannot, as their capital letters read as an acronym, nor can what follows a digit.
-/

namespace ApiCompiler.Text

/--
Whether words that were run together can be told apart: no small letter stands behind a digit, and a
capital letter behind another one stands in front of a small one.
-/
def isHumped : List Char → Bool
  | first :: second :: rest =>
      !(first.isDigit && second.isLower) &&
        !(first.isUpper && second.isUpper && !rest.head?.any Char.isLower) &&
        isHumped (second :: rest)
  | _ => true

/-- Whether a text of such words can stand behind another word. -/
def canFollow (text : List Char) : Bool :=
  !text.head?.any Char.isLower && isHumped text

theorem canFollow_eq_false {text : List Char} (start : text.head?.any Char.isLower = true) :
    canFollow text = false := by
  rw [canFollow, start]
  rfl

theorem canFollow_eq_isHumped {text : List Char} (start : text.head?.any Char.isLower = false) :
    canFollow text = isHumped text := by
  rw [canFollow, start]
  rfl

theorem isHumped_of_isLower {c : Char} (lower : c.isLower = true) (text : List Char) :
    isHumped (c :: text) = isHumped text := by
  cases text with
  | nil => rfl
  | cons d rest =>
      simp [isHumped, not_isDigit_of_isLower lower, isUpper_of_isLower lower]

theorem isHumped_of_isDigit {c : Char} (digit : c.isDigit = true) (text : List Char) :
    isHumped (c :: text) = canFollow text := by
  cases text with
  | nil => rfl
  | cons d rest => simp [canFollow, isHumped, digit, not_isUpper_of_isDigit digit]

theorem isHumped_of_isUpper {c : Char} (upper : c.isUpper = true) (text : List Char) :
    isHumped (c :: text) =
      (!(text.head?.any Char.isUpper && !text.tail.head?.any Char.isLower) && isHumped text) := by
  cases text with
  | nil => rfl
  | cons d rest => simp [isHumped, upper, not_isDigit_of_isUpper upper]

theorem exists_cons_of_head?_any {p : Char → Bool} {text : List Char}
    (first : text.head?.any p = true) : ∃ c rest, text = c :: rest ∧ p c = true := by
  cases text with
  | nil => cases first
  | cons c rest => exact ⟨c, rest, rfl, first⟩

/-! Small letters and digits at the start of a text. -/

/-- The small letters at the start of a text, and the digits behind them. -/
def smallRun (text : List Char) : List Char :=
  text.takeWhile Char.isLower ++ (text.dropWhile Char.isLower).takeWhile Char.isDigit

def afterSmallRun (text : List Char) : List Char :=
  (text.dropWhile Char.isLower).dropWhile Char.isDigit

theorem smallRun_append (text : List Char) : smallRun text ++ afterSmallRun text = text := by
  rw [smallRun, afterSmallRun, List.append_assoc, List.takeWhile_append_dropWhile,
    List.takeWhile_append_dropWhile]

theorem map_toLower_smallRun (text : List Char) : (smallRun text).map Char.toLower = smallRun text := by
  have unchanged : ∀ c ∈ smallRun text, c.toLower = c := by
    intro c member
    apply toLower_of_not_isUpper
    rcases List.mem_append.mp member with small | digit
    · exact isUpper_of_isLower (List.mem_takeWhile_imp small)
    · exact not_isUpper_of_isDigit (List.mem_takeWhile_imp digit)
  rw [List.map_congr_left unchanged, List.map_id']

/-- Behind digits a small letter starts a word, and it should be a capital one. -/
theorem isHumped_dropWhile_isDigit {text : List Char} (start : text.head?.any Char.isLower = false) :
    isHumped text = canFollow (text.dropWhile Char.isDigit) := by
  induction text with
  | nil => rfl
  | cons c text ih =>
      cases digit : c.isDigit with
      | false => rw [List.dropWhile_cons_of_neg (by simp [digit]), canFollow_eq_isHumped start]
      | true =>
          rw [isHumped_of_isDigit digit, List.dropWhile_cons_of_pos digit]
          cases small : text.head?.any Char.isLower with
          | false =>
              rw [canFollow_eq_isHumped small]
              exact ih small
          | true =>
              obtain ⟨d, rest, rfl, lower⟩ := exists_cons_of_head?_any small
              rw [List.dropWhile_cons_of_neg (by simp [not_isDigit_of_isLower lower])]

theorem isHumped_afterSmallRun (text : List Char) :
    isHumped text = canFollow (afterSmallRun text) := by
  induction text with
  | nil => rfl
  | cons c text ih =>
      cases lower : c.isLower with
      | true =>
          have same : afterSmallRun (c :: text) = afterSmallRun text := by
            rw [afterSmallRun, afterSmallRun, List.dropWhile_cons_of_pos lower]
          rw [isHumped_of_isLower lower, same]
          exact ih
      | false =>
          have same : afterSmallRun (c :: text) = (c :: text).dropWhile Char.isDigit := by
            rw [afterSmallRun, List.dropWhile_cons_of_neg (by simp [lower])]
          rw [same]
          exact isHumped_dropWhile_isDigit lower

/-! The first word. -/

theorem wordAt_of_not_isUpper {c : Char} (notUpper : c.isUpper = false) (text : List Char) :
    wordAt (c :: text) = (smallRun (c :: text), afterSmallRun (c :: text)) := by
  simp [wordAt, notUpper, smallRun, afterSmallRun]

theorem wordAt_of_capital {c : Char} (upper : c.isUpper = true) {text : List Char}
    (alone : text.head?.any Char.isUpper = false) :
    wordAt (c :: text) = (c :: smallRun text, afterSmallRun text) := by
  have none : text.takeWhile Char.isUpper = [] := by
    cases text with
    | nil => rfl
    | cons d rest => exact List.takeWhile_cons_of_neg (by simpa using alone)
  have all : text.dropWhile Char.isUpper = text := by
    cases text with
    | nil => rfl
    | cons d rest => exact List.dropWhile_cons_of_neg (by simpa using alone)
  simp [wordAt, upper, none, all, smallRun, afterSmallRun]

/-- A capital letter in front of a capitalised word is a word of its own. -/
theorem wordAt_of_capitals {c d e : Char} (upper : c.isUpper = true) (next : d.isUpper = true)
    (lower : e.isLower = true) (text : List Char) :
    wordAt (c :: d :: e :: text) = ([c], d :: e :: text) := by
  simp [wordAt, upper, next, lower, isUpper_of_isLower lower]

/-- Two capital letters that no small one follows are in one word. -/
theorem wordAt_of_acronym {c d : Char} (upper : c.isUpper = true) (next : d.isUpper = true)
    {text : List Char} (bare : text.head?.any Char.isLower = false) :
    ∃ rest, (wordAt (c :: d :: text)).1 = c :: d :: rest := by
  cases text with
  | nil => exact ⟨[], by simp [wordAt, upper, next]⟩
  | cons e text =>
      have notLower : e.isLower = false := bare
      cases third : e.isUpper with
      | false =>
          refine ⟨(e :: text).takeWhile Char.isDigit, ?_⟩
          simp [wordAt, upper, next, third, notLower]
      | true =>
          simp only [wordAt, List.takeWhile_cons_of_pos upper, List.takeWhile_cons_of_pos next,
            List.takeWhile_cons_of_pos third]
          split
          · exact ⟨_, rfl⟩
          · exact ⟨_, rfl⟩

/-! Words that camel case does not change. -/

/-- The word as it stands in camel case behind other words. -/
def titled (word : List Char) : List Char :=
  capitalize (word.map Char.toLower)

theorem titled_cons_ne_self {c : Char} (lower : c.isLower = true) (rest : List Char) :
    titled (c :: rest) ≠ c :: rest := by
  intro same
  have first : c.toLower.toUpper = c := (List.cons.inj same).1
  rw [toLower_of_not_isUpper (isUpper_of_isLower lower)] at first
  exact toUpper_ne_self lower first

theorem titled_acronym_ne_self {c d : Char} (upper : d.isUpper = true) (rest : List Char) :
    titled (c :: d :: rest) ≠ c :: d :: rest := by
  intro same
  have second : d.toLower = d := (List.cons.inj (List.cons.inj same).2).1
  exact toLower_ne_self upper second

theorem titled_cons_smallRun {c : Char} (notLower : c.isLower = false) (text : List Char) :
    titled (c :: smallRun text) = c :: smallRun text := by
  rw [titled, List.map_cons, map_toLower_smallRun, capitalize, toUpper_toLower notLower]

theorem smallRun_cons_of_isLower {c : Char} (lower : c.isLower = true) (text : List Char) :
    smallRun (c :: text) = c :: smallRun text := by
  rw [smallRun, smallRun, List.takeWhile_cons_of_pos lower, List.dropWhile_cons_of_pos lower]
  rfl

theorem titled_smallRun {text : List Char} (start : text.head?.any Char.isLower = false) :
    titled (smallRun text) = smallRun text := by
  rw [titled, map_toLower_smallRun]
  cases text with
  | nil => rfl
  | cons c text =>
      have notLower : c.isLower = false := start
      rw [smallRun, List.takeWhile_cons_of_neg (by simp [notLower]),
        List.dropWhile_cons_of_neg (by simp [notLower]), List.nil_append]
      cases digit : c.isDigit with
      | false =>
          rw [List.takeWhile_cons_of_neg (by simp [digit])]
          rfl
      | true =>
          rw [List.takeWhile_cons_of_pos digit, capitalize, toUpper_of_not_isLower notLower]

/-- A text can follow a word if its own first word is titled and what comes after can follow that. -/
theorem canFollow_cons (c : Char) (text : List Char) :
    canFollow (c :: text) = true ↔
      titled (wordAt (c :: text)).1 = (wordAt (c :: text)).1 ∧
        canFollow (wordAt (c :: text)).2 = true := by
  cases upper : c.isUpper with
  | false =>
      rw [wordAt_of_not_isUpper upper, ← isHumped_afterSmallRun (c :: text)]
      cases lower : c.isLower with
      | false =>
          have start : (c :: text).head?.any Char.isLower = false := lower
          simp [canFollow_eq_isHumped start, titled_smallRun start]
      | true =>
          have start : (c :: text).head?.any Char.isLower = true := lower
          simp [canFollow_eq_false start, smallRun_cons_of_isLower lower, titled_cons_ne_self lower]
  | true =>
      have notLower : c.isLower = false := not_isLower_of_isUpper upper
      have start : (c :: text).head?.any Char.isLower = false := notLower
      rw [canFollow_eq_isHumped start, isHumped_of_isUpper upper]
      cases next : text.head?.any Char.isUpper with
      | false =>
          rw [wordAt_of_capital upper next, ← isHumped_afterSmallRun text]
          simp [titled_cons_smallRun notLower]
      | true =>
          obtain ⟨d, text, rfl, capital⟩ := exists_cons_of_head?_any next
          cases third : text.head?.any Char.isLower with
          | false =>
              obtain ⟨rest, word⟩ := wordAt_of_acronym upper capital third
              simp [word, titled_acronym_ne_self capital, third]
          | true =>
              obtain ⟨e, text, rfl, small⟩ := exists_cons_of_head?_any third
              have alone : titled [c] = [c] := titled_cons_smallRun notLower []
              rw [wordAt_of_capitals upper capital small]
              simp [alone, canFollow, not_isLower_of_isUpper capital, small]

/-- Behind another word, all words of a text are titled if it can stand there. -/
theorem titled_asciiWords_iff {text : List Char} (usable : ∀ c ∈ text, c.isAlphanum = true) :
    (∀ word ∈ asciiWords text, titled word = word) ↔ canFollow text = true := by
  induction bound : text.length using Nat.strong_induction_on generalizing text with
  | _ bound ih =>
      subst bound
      cases text with
      | nil => simp [canFollow, isHumped]
      | cons c text =>
          have first := usable c (by simp)
          have later : ∀ d ∈ (wordAt (c :: text)).2, d.isAlphanum = true := by
            intro d member
            refine usable d ?_
            rw [← wordAt_append (c :: text)]
            exact List.mem_append_right _ member
          rw [asciiWords_cons_of_alphanum text first, List.forall_mem_cons, canFollow_cons,
            ih _ (length_wordAt_snd_lt text first) later rfl]

/-! Camel case that changes nothing. -/

/-- Pieces of the same lengths make up the same text only if they are the same pieces. -/
theorem flatMap_eq_flatten_iff {f : List Char → List Char}
    (same : ∀ word, (f word).length = word.length) {words : List (List Char)} :
    words.flatMap f = words.flatten ↔ ∀ word ∈ words, f word = word := by
  induction words with
  | nil => simp
  | cons word words ih =>
      rw [List.flatMap_cons, List.flatten_cons, List.forall_mem_cons, ← ih]
      constructor
      · intro joined
        exact List.append_inj joined (same word)
      · rintro ⟨first, others⟩
        rw [first, others]

theorem length_titled (word : List Char) : (titled word).length = word.length := by
  rw [titled, length_capitalize, List.length_map]

/-- Camel case keeps letters and digits that start in lower case if their words can be told apart. -/
theorem camelCase_eq_self_iff {text : List Char} (lower : text.head?.any Char.isLower = true)
    (usable : ∀ c ∈ text, c.isAlphanum = true) :
    camelCase text = text ↔ isHumped text = true := by
  have ascii : ∀ c ∈ text, c.toNat < 0x80 := fun c member => toNat_lt_of_isAlphanum (usable c member)
  have later : ∀ c ∈ afterSmallRun text, c.isAlphanum = true := by
    intro c member
    refine usable c ?_
    rw [← smallRun_append text]
    exact List.mem_append_right _ member
  have split : words text = smallRun text :: asciiWords (afterSmallRun text) := by
    obtain ⟨c, rest, rfl, first⟩ := exists_cons_of_head?_any lower
    rw [words, removeAccents_of_ascii ascii, asciiWords_cons_of_alphanum rest (usable c (by simp)),
      wordAt_of_not_isUpper (isUpper_of_isLower first)]
  have others : (asciiWords (afterSmallRun text)).flatten = afterSmallRun text := by
    rw [flatten_asciiWords, List.filter_eq_self.mpr later]
  have camel : camelCase text =
      smallRun text ++ (asciiWords (afterSmallRun text)).flatMap titled := by
    rw [camelCase, split]
    show (smallRun text).map Char.toLower ++ _ = _
    rw [map_toLower_smallRun]
    rfl
  calc camelCase text = text
      ↔ smallRun text ++ (asciiWords (afterSmallRun text)).flatMap titled =
          smallRun text ++ afterSmallRun text := by rw [camel, smallRun_append]
    _ ↔ (asciiWords (afterSmallRun text)).flatMap titled =
          (asciiWords (afterSmallRun text)).flatten := by rw [List.append_cancel_left_eq, others]
    _ ↔ isHumped text = true := by
        rw [flatMap_eq_flatten_iff length_titled, titled_asciiWords_iff later,
          isHumped_afterSmallRun text]

end ApiCompiler.Text
