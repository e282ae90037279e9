import ApiCompiler.Proofs.Text.Blank
import ApiCompiler.Proofs.Text.Segments
import ApiCompiler.Text.Sentence

/-!
Descriptions are a normal form: one trimmed line that is not empty, without a tag and without the end
of a sentence. Exactly the texts of this form are their own description.
-/

namespace ApiCompiler.Text

/-! Tags. -/

/-- A tag: brackets around at least one character, none of which closes them. -/
def IsMarkup (text : List Char) : Prop :=
  ∃ inside, inside ≠ [] ∧ '>' ∉ inside ∧ text = '<' :: inside ++ ['>']

def IsUnmarked (text : List Char) : Prop :=
  ∀ tag, IsMarkup tag → ¬ tag <:+: text

theorem IsMarkup.ne_nil {tag : List Char} (markup : IsMarkup tag) : tag ≠ [] := by
  obtain ⟨inside, -, -, rfl⟩ := markup
  simp

theorem exists_isMarkup {part : List Char} (some : part ≠ []) (unclosed : '>' ∉ part)
    (rest : List Char) : ∃ tag, IsMarkup tag ∧ tag <+: '<' :: (part ++ '>' :: rest) :=
  ⟨_, ⟨part, some, unclosed, rfl⟩, rest, by simp⟩

theorem IsUnmarked.of_isInfix {part text : List Char} (unmarked : IsUnmarked text)
    (inside : part <:+: text) : IsUnmarked part :=
  fun tag markup found => unmarked tag markup (found.trans inside)

theorem isUnmarked_cons {c : Char} {rest : List Char} :
    IsUnmarked (c :: rest) ↔ (∀ tag, IsMarkup tag → ¬ tag <+: c :: rest) ∧ IsUnmarked rest := by
  simp only [IsUnmarked, List.infix_cons_iff, not_or]
  exact ⟨fun none => ⟨fun tag markup => (none tag markup).1, fun tag markup =>
    (none tag markup).2⟩, fun ⟨starts, later⟩ tag markup => ⟨starts tag markup, later tag markup⟩⟩

theorem IsUnmarked.append {front rest : List Char} (unopened : '<' ∉ front)
    (unmarked : IsUnmarked rest) : IsUnmarked (front ++ rest) := by
  induction front with
  | nil => exact unmarked
  | cons c front ih =>
      rw [List.mem_cons, not_or] at unopened
      refine isUnmarked_cons.mpr ⟨?_, ih unopened.2⟩
      intro tag ⟨inside, _, _, letters⟩ starts
      rw [letters] at starts
      exact unopened.1 (List.cons_prefix_cons.mp starts).1

theorem dropTagsFrom_eq_drop (text : List Char) (skip : Nat) :
    dropTagsFrom text skip = dropTags (text.drop skip) := by
  induction text generalizing skip with
  | nil => simp [dropTags, dropTagsFrom]
  | cons c rest ih =>
      cases skip with
      | zero => rfl
      | succ skip => rw [dropTagsFrom, ih, List.drop_succ_cons]

theorem dropTags_append {tag : List Char} (markup : IsMarkup tag) (rest : List Char) :
    dropTags (tag ++ rest) = dropTags rest := by
  obtain ⟨inside, some, unclosed, rfl⟩ := markup
  obtain ⟨c, more, rfl⟩ := List.exists_cons_of_ne_nil some
  have cut : (c :: more ++ '>' :: rest).span (· ≠ '>') = (c :: more, '>' :: rest) :=
    span_eq_cons_iff.mpr ⟨rfl, unclosed, rfl⟩
  have letters : '<' :: (c :: more) ++ ['>'] ++ rest = '<' :: (c :: more ++ '>' :: rest) := by simp
  rw [letters, dropTags, dropTagsFrom, if_pos rfl, cut]
  simp only [dropTagsFrom_eq_drop]
  simp

theorem dropTags_cons {c : Char} {rest : List Char}
    (other : ∀ tag, IsMarkup tag → ¬ tag <+: c :: rest) :
    dropTags (c :: rest) = c :: dropTags rest := by
  rw [dropTags, dropTagsFrom]
  split
  · rename_i opens
    subst opens
    split
    · rename_i d inside e after cut
      obtain ⟨-, unclosed, rfl⟩ := span_eq_cons_iff.mp cut
      obtain ⟨tag, markup, starts⟩ := exists_isMarkup (List.cons_ne_nil d inside) unclosed after
      exact absurd starts (other tag markup)
    · rfl
  · rfl

theorem dropTags_of_isUnmarked {text : List Char} (unmarked : IsUnmarked text) :
    dropTags text = text := by
  induction text with
  | nil => rfl
  | cons c rest ih =>
      obtain ⟨starts, later⟩ := isUnmarked_cons.mp unmarked
      rw [dropTags_cons starts, ih later]

theorem dropTags_sublist (text : List Char) : (dropTags text).Sublist text := by
  have each (skip : Nat) : (dropTagsFrom text skip).Sublist text := by
    induction text generalizing skip with
    | nil => simp [dropTagsFrom]
    | cons c rest ih =>
        cases skip with
        | succ skip => exact (ih skip).cons c
        | zero =>
            unfold dropTagsFrom
            split
            · split
              · exact (ih _).cons c
              · exact (ih 0).cons_cons c
            · exact (ih 0).cons_cons c
  exact each 0

-- A bracket that stays is closed at once or never, so what is removed behind it brings no tag about.
theorem isUnmarked_dropTags (text : List Char) : IsUnmarked (dropTags text) := by
  by_cases marked : ∃ tag, IsMarkup tag ∧ tag <+: text
  · obtain ⟨tag, markup, rest, joined⟩ := marked
    have shorter : rest.length < text.length := by
      rw [← joined, List.length_append]
      exact Nat.lt_add_of_pos_left (List.length_pos_of_ne_nil markup.ne_nil)
    rw [← joined, dropTags_append markup]
    exact isUnmarked_dropTags rest
  · have other : ∀ tag, IsMarkup tag → ¬ tag <+: text := fun tag markup starts =>
      marked ⟨tag, markup, starts⟩
    cases text with
    | nil => exact fun tag markup inside => markup.ne_nil (List.infix_nil.mp inside)
    | cons c rest =>
        rw [dropTags_cons other, isUnmarked_cons]
        refine ⟨?_, isUnmarked_dropTags rest⟩
        rintro tag ⟨inside, some, unclosed, rfl⟩ starts
        obtain ⟨rfl, closes⟩ := List.cons_prefix_cons.mp starts
        have closing : '>' ∈ rest := (dropTags_sublist rest).subset (closes.subset (by simp))
        obtain ⟨part, after, rfl, unclosed'⟩ := List.eq_append_cons_of_mem closing
        by_cases empty : part = []
        · subst empty
          have kept : dropTags ('>' :: after) = '>' :: dropTags after := rfl
          obtain ⟨d, more, rfl⟩ := List.exists_cons_of_ne_nil some
          rw [List.nil_append, kept] at closes
          obtain ⟨rfl, -⟩ := List.cons_prefix_cons.mp closes
          exact unclosed List.mem_cons_self
        · obtain ⟨tag, markup, found⟩ := exists_isMarkup empty unclosed' after
          exact other tag markup found
termination_by text.length
decreasing_by
  · exact shorter
  · simp

/-! Sentences. -/

theorem endsSentence_eq_false {c : Char} :
    endsSentence c = false ↔ c ≠ '.' ∧ c ≠ '!' ∧ c ≠ '?' := by
  simp [endsSentence, and_assoc]

/-- The beginning of a sentence on one trimmed line, and nothing else. -/
structure IsSentence (text : List Char) : Prop where
  nonempty : text ≠ []
  trimmed : IsTrimmed text
  unbroken : IsUnbroken text
  unended : ∀ c ∈ text, c ≠ '.' ∧ c ≠ '!' ∧ c ≠ '?'
  unmarked : IsUnmarked text

/-- The text up to the end of its first sentence, without blanks around it. -/
def firstSentence (text : List Char) : List Char :=
  trim (text.takeWhile (!endsSentence ·))

theorem firstSentence_isInfix (text : List Char) : firstSentence text <:+: text :=
  (trim_isInfix _).trans (List.takeWhile_prefix _).isInfix

theorem unended_firstSentence {text : List Char} :
    ∀ c ∈ firstSentence text, c ≠ '.' ∧ c ≠ '!' ∧ c ≠ '?' := by
  intro c member
  apply endsSentence_eq_false.mp
  simpa using List.mem_takeWhile_imp ((trim_isInfix _).subset member)

theorem isSentence_firstSentence {text : List Char} (unbroken : IsUnbroken text)
    (unmarked : IsUnmarked text) (nonempty : firstSentence text ≠ []) :
    IsSentence (firstSentence text) := by
  have part := firstSentence_isInfix text
  exact ⟨nonempty, isTrimmed_trim _, unbroken.of_isInfix part, unended_firstSentence,
    unmarked.of_isInfix part⟩

theorem firstSentence_of_unended {text : List Char}
    (unended : ∀ c ∈ text, c ≠ '.' ∧ c ≠ '!' ∧ c ≠ '?') : firstSentence text = trim text := by
  rw [firstSentence, List.takeWhile_eq_self_iff.mpr]
  intro c member
  simp [endsSentence_eq_false.mpr (unended c member)]

theorem unended_trim_iff {text : List Char} :
    (∀ c ∈ trim text, c ≠ '.' ∧ c ≠ '!' ∧ c ≠ '?') ↔ ∀ c ∈ text, c ≠ '.' ∧ c ≠ '!' ∧ c ≠ '?' := by
  refine ⟨fun unended c member => ?_, fun unended c member =>
    unended c ((trim_isInfix text).subset member)⟩
  by_contra ends
  have solid : isBlank c = false := by
    simp only [not_and_or, not_not] at ends
    rcases ends with rfl | rfl | rfl <;> rfl
  exact ends (unended c (mem_trim member solid))

/-- Nothing but blanks is cut off exactly when no sentence ends in the text. -/
theorem firstSentence_eq_trim_iff {text : List Char} :
    firstSentence text = trim text ↔ ∀ c ∈ text, c ≠ '.' ∧ c ≠ '!' ∧ c ≠ '?' := by
  refine ⟨fun whole => ?_, firstSentence_of_unended⟩
  rw [← unended_trim_iff, ← whole]
  exact unended_firstSentence

theorem firstSentence_cons_ne_nil {c : Char} (solid : isBlank c = false)
    (onward : endsSentence c = false) (rest : List Char) : firstSentence (c :: rest) ≠ [] := by
  intro blank
  rw [firstSentence, List.takeWhile_cons_of_pos (by simpa using onward), trim_eq_nil_iff] at blank
  exact absurd (blank c List.mem_cons_self) (Bool.eq_false_iff.mp solid)

theorem IsSentence.firstSentence_eq {text : List Char} (sentence : IsSentence text) :
    firstSentence text = text := by
  rw [firstSentence_of_unended sentence.unended, trim_of_isTrimmed sentence.trimmed]

theorem description?_eq_some {text sentence : List Char}
    (described : description? text = some sentence) :
    IsSentence sentence ∧ sentence <:+: dropTags text := by
  unfold description? at described
  split at described
  · cases described
  · rename_i line found
    obtain ⟨unbroken, inside⟩ := mem_lines (List.mem_of_find?_eq_some found)
    have unmarked := (isUnmarked_dropTags text).of_isInfix inside
    dsimp only at described
    rw [← firstSentence] at described
    split at described
    · cases described
    · rename_i nonempty
      cases described
      rw [List.isEmpty_iff] at nonempty
      exact ⟨isSentence_firstSentence unbroken unmarked nonempty,
        (firstSentence_isInfix line).trans inside⟩

theorem description?_of_isUnmarked {text : List Char} (unbroken : IsUnbroken text)
    (unmarked : IsUnmarked text) (nonempty : firstSentence text ≠ []) :
    description? text = some (firstSentence text) := by
  have solid : trim text ≠ [] := by
    intro blank
    apply nonempty
    rw [firstSentence, trim_eq_nil_iff]
    intro c member
    exact trim_eq_nil_iff.mp blank c ((List.takeWhile_prefix _).subset member)
  have written : text ≠ [] := by
    rintro rfl
    exact solid rfl
  rw [description?, dropTags_of_isUnmarked unmarked, lines_of_isUnbroken unbroken written,
    List.find?_cons_of_pos (by simpa using solid)]
  dsimp only
  rw [← firstSentence, if_neg (by simpa using nonempty)]

/-- What is shown of a text that begins with a letter: its first sentence, whole or not. -/
theorem exists_description? {text : String} {c : Char} {rest : List Char}
    (letters : text.toList = c :: rest) (solid : isBlank c = false)
    (onward : endsSentence c = false) (unbroken : IsUnbroken text.toList)
    (unmarked : IsUnmarked text.toList) :
    ∃ shown, text.description? = some shown ∧ shown.toList = firstSentence text.toList ∧
      (shown.toList = trim text.toList ↔ ∀ c ∈ text.toList, c ≠ '.' ∧ c ≠ '!' ∧ c ≠ '?') := by
  have nonempty : firstSentence text.toList ≠ [] := by
    rw [letters]
    exact firstSentence_cons_ne_nil solid onward rest
  refine ⟨String.ofList (firstSentence text.toList), ?_, String.toList_ofList, ?_⟩
  · rw [String.description?, description?_of_isUnmarked unbroken unmarked nonempty, Option.map_some]
  · rw [String.toList_ofList, firstSentence_eq_trim_iff]

theorem description?_of_isSentence {text : List Char} (sentence : IsSentence text) :
    description? text = some text := by
  have same := sentence.firstSentence_eq
  rw [description?_of_isUnmarked sentence.unbroken sentence.unmarked
    (same.symm ▸ sentence.nonempty), same]

theorem toList_description?_eq_some {text sentence : String} :
    text.description? = some sentence ↔ description? text.toList = some sentence.toList := by
  rw [String.description?, Option.map_eq_some_iff]
  constructor
  · rintro ⟨letters, described, rfl⟩
    rw [described, String.toList_ofList]
  · intro described
    exact ⟨sentence.toList, described, String.ofList_toList⟩

/--
A text has no description, or one that is a normal form: not empty, without blanks at its ends, on one
line, without a tag and without the end of a sentence, and its own description. All of its characters
are the text's, in their order, and exactly the texts in this form describe themselves.
-/
theorem description?_normal (text : String) :
    (text.description? = none ∨
      ∃ sentence, text.description? = some sentence ∧ IsSentence sentence.toList ∧
        sentence.toList.Sublist text.toList ∧ sentence.description? = some sentence) ∧
    (text.description? = some text ↔ IsSentence text.toList) := by
  constructor
  · cases described : text.description? with
    | none => exact .inl rfl
    | some sentence =>
        obtain ⟨normal, inside⟩ :=
          description?_eq_some (toList_description?_eq_some.mp described)
        have kept := toList_description?_eq_some.mpr (description?_of_isSentence normal)
        exact .inr ⟨sentence, rfl, normal, inside.sublist.trans (dropTags_sublist _), kept⟩
  · constructor
    · intro described
      exact (description?_eq_some (toList_description?_eq_some.mp described)).1
    · intro normal
      exact toList_description?_eq_some.mpr (description?_of_isSentence normal)

-- Taking tags away joins what stood around them, but never to a tag.
example : "<<b>a> x\n<i>Lists</i> <> things! More".description? = some "a> x" := by decide

end ApiCompiler.Text
