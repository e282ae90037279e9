import ApiCompiler.Proofs.Text.Words

/-!
Forms of words: capital letters, small letters and digits in this order, and small letters have one
capital letter in front of them at most. Words of these forms that are set apart are found again as
they are, in start case too, and camel case changes nothing but their letter case.
-/

namespace ApiCompiler.Text

/-! Fronts of texts. -/

section Fronts

variable {p : Char → Bool} {front back : List Char}

theorem any_head?_append (starts : front.head?.any p = true) (back : List Char) :
    (front ++ back).head?.any p = true := by
  cases front with
  | nil => cases starts
  | cons c rest => exact starts

theorem any_head?_append_eq_false (none : ∀ c ∈ front, p c = false)
    (stop : back.head?.any p = false) : (front ++ back).head?.any p = false := by
  cases front with
  | nil => exact stop
  | cons c rest => exact none c List.mem_cons_self

theorem takeWhile_append_of_stop (all : ∀ c ∈ front, p c = true)
    (stop : back.head?.any p = false) : (front ++ back).takeWhile p = front := by
  rw [List.takeWhile_append_of_pos all]
  cases back with
  | nil => simp
  | cons c rest => rw [List.takeWhile_cons_of_neg (by simpa using stop), List.append_nil]

theorem dropWhile_append_of_stop (all : ∀ c ∈ front, p c = true)
    (stop : back.head?.any p = false) : (front ++ back).dropWhile p = back := by
  rw [List.dropWhile_append_of_pos all]
  cases back with
  | nil => rfl
  | cons c rest => rw [List.dropWhile_cons_of_neg (by simpa using stop)]

end Fronts

/-! Words. -/

inductive IsWord : List Char → Prop
  | mk {capitals small digits : List Char} (upper : ∀ c ∈ capitals, c.isUpper = true)
      (lower : ∀ c ∈ small, c.isLower = true) (digit : ∀ c ∈ digits, c.isDigit = true)
      (humped : small = [] ∨ capitals.length ≤ 1) (some : capitals ++ small ++ digits ≠ []) :
      IsWord (capitals ++ small ++ digits)

theorem isWord_wordAt {c : Char} (rest : List Char) (usable : c.isAlphanum = true) :
    IsWord (wordAt (c :: rest)).1 := by
  have some := wordAt_fst_ne_nil rest usable
  generalize c :: rest = text at some ⊢
  simp only [wordAt] at some ⊢
  split
  · have capitals : ∀ c ∈ (text.takeWhile Char.isUpper).dropLast, c.isUpper = true :=
      fun c member => List.mem_takeWhile_imp (List.dropLast_subset _ member)
    rw [if_pos ‹_›] at some
    have form : IsWord ((text.takeWhile Char.isUpper).dropLast ++ [] ++ []) :=
      .mk capitals (by simp) (by simp) (.inl rfl) (by simpa using some)
    simpa using form
  · rename_i single
    rw [if_neg single] at some
    refine .mk (fun c => List.mem_takeWhile_imp) (fun c => List.mem_takeWhile_imp)
      (fun c => List.mem_takeWhile_imp) ?_ some
    by_cases none : (text.dropWhile Char.isUpper).takeWhile Char.isLower = []
    · exact .inl none
    · exact .inr (by simpa [none] using single)

theorem isWord_of_mem_asciiWords {text word : List Char} (member : word ∈ asciiWords text) :
    IsWord word := by
  obtain ⟨c, rest, usable, rfl⟩ := eq_wordAt_of_mem_asciiWords member
  exact isWord_wordAt rest usable

namespace IsWord

variable {word : List Char}

theorem of_isLower (lower : ∀ c ∈ word, c.isLower = true) (some : word ≠ []) : IsWord word := by
  have form : IsWord ([] ++ word ++ []) :=
    .mk (by simp) lower (by simp) (.inr (by simp)) (by simpa using some)
  simpa using form

theorem ne_nil (form : IsWord word) : word ≠ [] := by
  cases form with
  | mk _ _ _ _ some => exact some

theorem isAlphanum (form : IsWord word) : ∀ c ∈ word, c.isAlphanum = true := by
  cases form with
  | mk upper lower digit =>
      intro c member
      simp only [List.mem_append] at member
      rcases member with (capital | small) | number
      · simp [isAlphanum_eq, upper c capital]
      · simp [isAlphanum_eq, lower c small]
      · simp [isAlphanum_eq, digit c number]

/-- A word is found whole if no letter or digit comes after it. -/
theorem wordAt_append (form : IsWord word) {rest : List Char}
    (apart : rest.head?.any Char.isAlphanum = false) : wordAt (word ++ rest) = (word, rest) := by
  have none {p : Char → Bool} (within : ∀ c, p c = true → c.isAlphanum = true) :
      rest.head?.any p = false := by
    cases rest with
    | nil => rfl
    | cons c rest =>
        have other : c.isAlphanum = false := apart
        exact Bool.eq_false_iff.mpr fun accepted => by simp [within c accepted] at other
  cases form with
  | @mk capitals small digits upper lower digit humped some =>
      -- each of the three runs stops where the next one starts, so it is taken whole
      have noDigit : rest.head?.any Char.isDigit = false :=
        none (by simp +contextual [isAlphanum_eq])
      have noSmall : (digits ++ rest).head?.any Char.isLower = false :=
        any_head?_append_eq_false (fun c member => not_isLower_of_isDigit (digit c member))
          (none (by simp +contextual [isAlphanum_eq]))
      have noCapital : (small ++ (digits ++ rest)).head?.any Char.isUpper = false :=
        any_head?_append_eq_false (fun c member => isUpper_of_isLower (lower c member)) <|
          any_head?_append_eq_false (fun c member => not_isUpper_of_isDigit (digit c member))
            (none (by simp +contextual [isAlphanum_eq]))
      simp only [wordAt, List.append_assoc, takeWhile_append_of_stop upper noCapital,
        dropWhile_append_of_stop upper noCapital, takeWhile_append_of_stop lower noSmall,
        dropWhile_append_of_stop lower noSmall, takeWhile_append_of_stop digit noDigit,
        dropWhile_append_of_stop digit noDigit]
      rw [if_neg]
      rcases humped with rfl | single
      · simp
      · simp [Nat.not_lt.mpr single]

theorem asciiWords_eq (form : IsWord word) : asciiWords word = [word] := by
  have whole : wordAt (word ++ []) = (word, []) := form.wordAt_append rfl
  obtain ⟨c, tail, rfl⟩ := List.exists_cons_of_ne_nil form.ne_nil
  rw [List.append_nil] at whole
  rw [asciiWords_cons_of_alphanum tail (form.isAlphanum c List.mem_cons_self), whole,
    asciiWords_nil]

/-- A word is set apart by whatever is no letter or digit. -/
theorem asciiWords_append (form : IsWord word) {separator : Char}
    (apart : separator.isAlphanum = false) (rest : List Char) :
    asciiWords (word ++ separator :: rest) = word :: asciiWords rest := by
  have whole : wordAt (word ++ separator :: rest) = (word, separator :: rest) :=
    form.wordAt_append apart
  obtain ⟨c, tail, rfl⟩ := List.exists_cons_of_ne_nil form.ne_nil
  rw [List.cons_append] at whole ⊢
  rw [asciiWords_cons_of_alphanum _ (form.isAlphanum c List.mem_cons_self), whole,
    asciiWords_cons_of_separator rest apart]

theorem removeAccents_eq (form : IsWord word) : removeAccents word = word :=
  removeAccents_of_ascii fun c member => toNat_lt_of_isAlphanum (form.isAlphanum c member)

theorem words_eq (form : IsWord word) : words word = [word] := by
  rw [words, form.removeAccents_eq, form.asciiWords_eq]

theorem words_append (form : IsWord word) (rest : List Char) :
    words (word ++ ' ' :: rest) = word :: words rest := by
  have blank : removeAccents (' ' :: rest) = ' ' :: removeAccents rest := rfl
  rw [words, removeAccents_append, form.removeAccents_eq, blank,
    form.asciiWords_append (by decide), words]

/-- With a capital letter in front, small letters stand behind one capital letter again. -/
theorem capitalize (form : IsWord word) : IsWord (capitalize word) := by
  cases form with
  | @mk capitals small digits upper lower digit humped some =>
      cases capitals with
      | cons c capitals =>
          have same : c.toUpper = c :=
            toUpper_of_not_isLower (not_isLower_of_isUpper (upper c List.mem_cons_self))
          simpa [Text.capitalize, same] using IsWord.mk upper lower digit humped some
      | nil =>
          cases small with
          | cons c small =>
              have one : ∀ d ∈ [c.toUpper], d.isUpper = true := by
                simpa using ((toUpper_cases c).resolve_right (by simp [lower c])).2
              have others : ∀ d ∈ small, d.isLower = true := fun d member =>
                lower d (List.mem_cons_of_mem c member)
              simpa [Text.capitalize] using IsWord.mk one others digit (.inr (by simp)) (by simp)
          | nil =>
              cases digits with
              | nil => exact absurd rfl some
              | cons c digits =>
                  have same : c.toUpper = c :=
                    toUpper_of_not_isLower (not_isLower_of_isDigit (digit c List.mem_cons_self))
                  simpa [Text.capitalize, same] using IsWord.mk upper lower digit humped some

end IsWord

theorem words_joinWith {list : List (List Char)} (forms : ∀ word ∈ list, IsWord word) :
    words (joinWith [' '] list) = list := by
  induction list with
  | nil => rfl
  | cons word others ih =>
      obtain ⟨form, later⟩ := List.forall_mem_cons.mp forms
      cases others with
      | nil => exact form.words_eq
      | cons next others =>
          rw [joinWith_cons _ _ (List.cons_ne_nil next others), List.append_assoc,
            List.singleton_append, form.words_append, ih later]

/-! Letter case. -/

theorem toUpper_toUpper (c : Char) : c.toUpper.toUpper = c.toUpper := by
  rcases toUpper_cases c with ⟨-, upper⟩ | ⟨-, same⟩
  · exact toUpper_of_not_isLower (not_isLower_of_isUpper upper)
  · rw [same, same]

theorem toLower_toLower (c : Char) : c.toLower.toLower = c.toLower :=
  toLower_of_not_isUpper (isUpper_toLower c)

theorem toLower_toUpper (c : Char) : c.toUpper.toLower = c.toLower := by
  rcases toUpper_cases c with ⟨lower, upper⟩ | ⟨-, same⟩
  · have up := toNat_toUpper lower
    have down := toNat_toLower upper
    rw [toLower_of_not_isUpper (isUpper_of_isLower lower)]
    exact Char.toNat_inj.mp (by omega)
  · rw [same]

theorem capitalize_capitalize (word : List Char) :
    capitalize (capitalize word) = capitalize word := by
  cases word with
  | nil => rfl
  | cons c rest => rw [capitalize, capitalize, toUpper_toUpper]

theorem map_toLower_capitalize (word : List Char) :
    (capitalize word).map Char.toLower = word.map Char.toLower := by
  cases word with
  | nil => rfl
  | cons c rest => rw [capitalize, List.map_cons, List.map_cons, toLower_toUpper]

theorem startCase_startCase (text : List Char) : startCase (startCase text) = startCase text := by
  have forms : ∀ word ∈ (words text).map capitalize, IsWord word := by
    intro word member
    obtain ⟨original, listed, rfl⟩ := List.mem_map.mp member
    exact (isWord_of_mem_asciiWords listed).capitalize
  have again : capitalize ∘ capitalize = capitalize := funext capitalize_capitalize
  calc startCase (startCase text)
      = joinWith [' ']
          ((words (joinWith [' '] ((words text).map capitalize))).map capitalize) := rfl
    _ = startCase text := by rw [words_joinWith forms, List.map_map, again, startCase]

theorem map_toLower_camelCase (text : List Char) :
    (camelCase text).map Char.toLower = (words text).flatten.map Char.toLower := by
  have lowered (word : List Char) : (word.map Char.toLower).map Char.toLower =
      word.map Char.toLower := by
    rw [List.map_map]
    exact List.map_congr_left fun c _ => toLower_toLower c
  rw [camelCase]
  cases words text with
  | nil => rfl
  | cons head tail =>
      have others : (tail.flatMap fun word => capitalize (word.map Char.toLower)).map Char.toLower =
          tail.flatten.map Char.toLower := by
        rw [List.map_flatMap, List.map_flatten, List.flatMap_def]
        simp only [map_toLower_capitalize, lowered]
      simp only [List.flatten_cons, List.map_append, lowered, others]

/-! Texts. -/

theorem joinWith_eq_intercalate (separator : List Char) (parts : List (List Char)) :
    joinWith separator parts = separator.intercalate parts := by
  induction parts with
  | nil => rfl
  | cons part others ih =>
      cases others with
      | nil => simp [joinWith]
      | cons next others => rw [joinWith, ih, List.intercalate_cons_cons, List.append_assoc]

/--
Taking a text apart into words loses none of its letters and digits, and the words stay apart when
they are joined with blanks.
-/
theorem words_stable (text : String) :
    (String.join text.words).toList = text.removeAccents.toList.filter Char.isAlphanum ∧
      (∀ word ∈ text.words, word ≠ "") ∧
      (String.intercalate " " text.words).words = text.words ∧
      text.startCase.startCase = text.startCase ∧
      text.camelCase.toList.map Char.toLower =
        (text.removeAccents.toList.filter Char.isAlphanum).map Char.toLower := by
  have kept : (words text.toList).flatten =
      text.removeAccents.toList.filter Char.isAlphanum := by
    rw [words, flatten_asciiWords, String.removeAccents, String.toList_ofList]
  refine ⟨?_, ?_, ?_, ?_, ?_⟩
  · rw [String.toList_join, String.words, List.flatMap_map, ← kept]
    simp
  · intro word member
    obtain ⟨letters, listed, rfl⟩ := List.mem_map.mp member
    have form : IsWord letters := isWord_of_mem_asciiWords listed
    simpa using form.ne_nil
  · have joined : (String.intercalate " " text.words).toList =
        joinWith [' '] (words text.toList) := by
      simp [String.words, joinWith_eq_intercalate]
    have forms : ∀ word ∈ words text.toList, IsWord word := fun word => isWord_of_mem_asciiWords
    rw [String.words, joined, words_joinWith forms, String.words]
  · rw [String.startCase, String.startCase, String.toList_ofList, startCase_startCase]
  · rw [String.camelCase, String.toList_ofList, map_toLower_camelCase, kept]

example : "HTTPServer_v2go".words = ["HTTP", "Server", "v2", "go"] := by decide

end ApiCompiler.Text
