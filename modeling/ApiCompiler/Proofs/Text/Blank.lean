import Mathlib.Data.List.Infix
import Mathlib.Data.List.TakeWhile
import ApiCompiler.Text.Blank

/-!
Lines and trimmed texts: a line is a part of its text without breaks, and trimming a text again changes
nothing.
-/

namespace ApiCompiler.Text

/-! Lines. -/

def IsUnbroken (text : List Char) : Prop :=
  ∀ c ∈ text, isLineBreak c = false

instance : DecidablePred IsUnbroken := fun text =>
  inferInstanceAs (Decidable (∀ c ∈ text, isLineBreak c = false))

theorem IsUnbroken.of_isInfix {part text : List Char} (unbroken : IsUnbroken text)
    (inside : part <:+: text) : IsUnbroken part :=
  fun c member => unbroken c (inside.subset member)

theorem mem_linesFrom {text line part : List Char} (unbroken : IsUnbroken line)
    (member : part ∈ linesFrom text line) :
    IsUnbroken part ∧ part <:+: line.reverse ++ text := by
  have fresh : IsUnbroken [] := fun c inside => absurd inside List.not_mem_nil
  have finished {line : List Char} (unbroken : IsUnbroken line) (rest : List Char) :
      IsUnbroken line.reverse ∧ line.reverse <:+: line.reverse ++ rest :=
    ⟨fun c inside => unbroken c (List.mem_reverse.mp inside), (List.prefix_append _ _).isInfix⟩
  induction text, line using linesFrom.induct with
  | case1 => simp [linesFrom] at member
  | case2 line begun =>
      rw [linesFrom] at member
      · cases List.mem_singleton.mp member
        exact finished unbroken []
      · exact begun
  | case3 rest line ih =>
      rw [linesFrom] at member
      rcases List.mem_cons.mp member with rfl | later
      · exact finished unbroken _
      · obtain ⟨whole, inside⟩ := ih fresh later
        refine ⟨whole, inside.trans (List.IsSuffix.isInfix ?_)⟩
        exact ⟨line.reverse ++ ['\r', '\n'], by simp⟩
  | case4 c rest line other breaks ih =>
      rw [linesFrom, if_pos breaks] at member
      · rcases List.mem_cons.mp member with rfl | later
        · exact finished unbroken _
        · obtain ⟨whole, inside⟩ := ih fresh later
          refine ⟨whole, inside.trans (List.IsSuffix.isInfix ?_)⟩
          exact ⟨line.reverse ++ [c], by simp⟩
      · exact other
  | case5 c rest line other onward ih =>
      rw [linesFrom, if_neg onward] at member
      · have longer : IsUnbroken (c :: line) :=
          List.forall_mem_cons.mpr ⟨Bool.eq_false_iff.mpr onward, unbroken⟩
        obtain ⟨whole, inside⟩ := ih longer member
        exact ⟨whole, by simpa using inside⟩
      · exact other

theorem mem_lines {text line : List Char} (member : line ∈ lines text) :
    IsUnbroken line ∧ line <:+: text :=
  mem_linesFrom (fun _ inside => absurd inside List.not_mem_nil) member

theorem linesFrom_of_isUnbroken {text : List Char} (unbroken : IsUnbroken text) (line : List Char)
    (begun : line.reverse ++ text ≠ []) : linesFrom text line = [line.reverse ++ text] := by
  induction text generalizing line with
  | nil =>
      rw [linesFrom, List.append_nil]
      rintro rfl
      exact begun rfl
  | cons c rest ih =>
      obtain ⟨onward, later⟩ := List.forall_mem_cons.mp unbroken
      rw [linesFrom, if_neg (Bool.eq_false_iff.mp onward), ih later (c :: line) (by simp)]
      · simp
      · rintro rest rfl
        cases onward

theorem lines_of_isUnbroken {text : List Char} (unbroken : IsUnbroken text) (some : text ≠ []) :
    lines text = [text] :=
  linesFrom_of_isUnbroken unbroken [] some

/-! Trimming. -/

structure IsTrimmed (text : List Char) : Prop where
  first : ∀ c ∈ text.head?, isBlank c = false
  last : ∀ c ∈ text.getLast?, isBlank c = false

theorem head?_dropWhile_isBlank (text : List Char) :
    ∀ c ∈ (text.dropWhile isBlank).head?, isBlank c = false := by
  intro c first
  have rejected := List.head?_dropWhile_not isBlank text
  rwa [Option.mem_def.mp first] at rejected

theorem dropWhile_isBlank_of_head? {text : List Char}
    (first : ∀ c ∈ text.head?, isBlank c = false) : text.dropWhile isBlank = text := by
  cases text with
  | nil => rfl
  | cons c rest => rw [List.dropWhile_cons_of_neg (Bool.eq_false_iff.mp (first c rfl))]

theorem trimRight_isPrefix (text : List Char) : trimRight text <+: text := by
  rw [trimRight, ← List.reverse_suffix, List.reverse_reverse]
  exact List.dropWhile_suffix isBlank

theorem trim_isInfix (text : List Char) : trim text <:+: text :=
  (trimRight_isPrefix _).isInfix.trans (List.dropWhile_suffix isBlank).isInfix

theorem isTrimmed_trim (text : List Char) : IsTrimmed (trim text) := by
  constructor
  · intro c first
    obtain ⟨after, joined⟩ := trimRight_isPrefix (trimLeft text)
    apply head?_dropWhile_isBlank text
    rw [Option.mem_def] at first ⊢
    rw [← trimLeft, ← joined, List.head?_append, ← trim, first, Option.some_or]
  · intro c last
    rw [trim, trimRight, List.getLast?_reverse] at last
    exact head?_dropWhile_isBlank _ c last

theorem trim_eq_nil_iff {text : List Char} : trim text = [] ↔ ∀ c ∈ text, isBlank c = true := by
  rw [trim, trimRight, List.reverse_eq_nil_iff, List.dropWhile_eq_nil_iff]
  constructor
  · intro blank
    apply List.dropWhile_eq_nil_iff.mp
    cases left : text.dropWhile isBlank with
    | nil => rfl
    | cons c rest =>
        have solid := head?_dropWhile_isBlank text c (by rw [left]; rfl)
        have first : c ∈ (trimLeft text).reverse := by simp [trimLeft, left]
        exact absurd (blank c first) (Bool.eq_false_iff.mp solid)
  · intro blank c member
    exact blank c ((List.dropWhile_sublist isBlank).subset (List.mem_reverse.mp member))

theorem mem_dropWhile_isBlank {text : List Char} {c : Char} (member : c ∈ text)
    (solid : isBlank c = false) : c ∈ text.dropWhile isBlank := by
  rw [← List.takeWhile_append_dropWhile (p := isBlank) (l := text), List.mem_append] at member
  rcases member with leading | kept
  · exact absurd (List.mem_takeWhile_imp leading) (Bool.eq_false_iff.mp solid)
  · exact kept

theorem mem_trim {text : List Char} {c : Char} (member : c ∈ text) (solid : isBlank c = false) :
    c ∈ trim text := by
  rw [trim, trimRight, List.mem_reverse]
  exact mem_dropWhile_isBlank (List.mem_reverse.mpr (mem_dropWhile_isBlank member solid)) solid

theorem trim_cons {c : Char} (solid : isBlank c = false) (rest : List Char) :
    ∃ kept, trim (c :: rest) = c :: kept := by
  have begins : trim (c :: rest) <+: c :: rest := by
    have whole : trimLeft (c :: rest) = c :: rest :=
      dropWhile_isBlank_of_head? fun d first => Option.some.inj first ▸ solid
    rw [trim, whole]
    exact trimRight_isPrefix _
  cases kept : trim (c :: rest) with
  | nil => exact absurd (trim_eq_nil_iff.mp kept c List.mem_cons_self) (Bool.eq_false_iff.mp solid)
  | cons d more =>
      rw [kept, List.cons_prefix_cons] at begins
      exact ⟨more, by rw [begins.1]⟩

theorem trim_of_isTrimmed {text : List Char} (trimmed : IsTrimmed text) : trim text = text := by
  have backwards : ∀ c ∈ text.reverse.head?, isBlank c = false := by
    rw [List.head?_reverse]
    exact trimmed.last
  rw [trim, trimLeft, dropWhile_isBlank_of_head? trimmed.first, trimRight,
    dropWhile_isBlank_of_head? backwards, List.reverse_reverse]

theorem trim_append_append {lead text trail : List Char} (some : text ≠ [])
    (trimmed : IsTrimmed text) (before : ∀ c ∈ lead, isBlank c = true)
    (behind : ∀ c ∈ trail, isBlank c = true) : trim (lead ++ text ++ trail) = text := by
  have left : trimLeft (lead ++ text ++ trail) = text ++ trail := by
    rw [trimLeft, List.append_assoc, List.dropWhile_append_of_pos before]
    refine dropWhile_isBlank_of_head? fun c first => ?_
    rw [List.head?_append_of_ne_nil _ some] at first
    exact trimmed.first c first
  have backwards : ∀ c ∈ text.reverse.head?, isBlank c = false := by
    rw [List.head?_reverse]
    exact trimmed.last
  rw [trim, left, trimRight, List.reverse_append,
    List.dropWhile_append_of_pos fun c member => behind c (List.mem_reverse.mp member),
    dropWhile_isBlank_of_head? backwards, List.reverse_reverse]

end ApiCompiler.Text
