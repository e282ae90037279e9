import Mathlib.Data.List.TakeDrop
import Mathlib.Data.List.TakeWhile
import ApiCompiler.Text.Segments

/-!
Texts taken apart at a separator, and replacing a part of a text, one step at a time.
-/

namespace ApiCompiler.Text

theorem span_eq_cons_iff {separator c : Char} {text part rest : List Char} :
    text.span (· ≠ separator) = (part, c :: rest) ↔
      c = separator ∧ separator ∉ part ∧ text = part ++ separator :: rest := by
  rw [List.span_eq_takeWhile_dropWhile, Prod.mk.injEq]
  constructor
  · rintro ⟨rfl, after⟩
    have rejected := List.head?_dropWhile_not (fun d => decide (d ≠ separator)) text
    rw [after] at rejected
    have same : c = separator := by simpa using rejected
    subst same
    refine ⟨rfl, fun inside => ?_, ?_⟩
    · simpa using List.mem_takeWhile_imp inside
    · rw [← after, List.takeWhile_append_dropWhile]
  · rintro ⟨rfl, absent, rfl⟩
    have before : ∀ d ∈ part, decide (d ≠ c) = true := fun d inside =>
      decide_eq_true fun same => absent (same ▸ inside)
    rw [List.takeWhile_append_of_pos before, List.dropWhile_append_of_pos before]
    simp

theorem append_separator_inj {separator : Char} {front other rest more : List Char}
    (absent : separator ∉ front) (otherAbsent : separator ∉ other)
    (same : front ++ separator :: rest = other ++ separator :: more) :
    front = other ∧ rest = more := by
  have parts := congrArg (splitAt separator) same
  rw [splitAt_append absent, splitAt_append otherAbsent] at parts
  obtain ⟨rfl, -⟩ := List.cons.inj parts
  exact ⟨rfl, (List.cons.inj (List.append_cancel_left same)).2⟩

/-! Cutting. -/

section Cutting

variable {separator : Char} {text part : List Char}

theorem cut_eq (separator : Char) (text : List Char) :
    cut separator text = (text.takeWhile (· ≠ separator),
      (text.dropWhile (· ≠ separator)).head?.map fun _ =>
        (text.dropWhile (· ≠ separator)).tail) := by
  rw [cut, List.span_eq_takeWhile_dropWhile]
  cases text.dropWhile (· ≠ separator) <;> rfl

theorem cut_fst_subset (separator : Char) (text : List Char) : (cut separator text).1 ⊆ text := by
  rw [cut_eq]
  exact (List.takeWhile_sublist _).subset

theorem cut_snd_subset (separator : Char) (text : List Char) :
    (cut separator text).2.getD [] ⊆ text := by
  rw [cut_eq]
  dsimp only
  cases dropped : text.dropWhile (· ≠ separator) with
  | nil => exact List.nil_subset _
  | cons c rest =>
      have inside : c :: rest ⊆ text := dropped ▸ (List.dropWhile_sublist _).subset
      exact List.Subset.trans (List.subset_cons_self c rest) inside

theorem separator_not_mem_cut (separator : Char) (text : List Char) :
    separator ∉ (cut separator text).1 := by
  rw [cut_eq]
  intro inside
  simpa using List.mem_takeWhile_imp inside

theorem cut_of_not_mem (absent : separator ∉ text) : cut separator text = (text, none) := by
  have all : ∀ c ∈ text, decide (c ≠ separator) = true := fun c inside =>
    decide_eq_true fun same => absent (same ▸ inside)
  rw [cut_eq, List.takeWhile_eq_self_iff.mpr all, List.dropWhile_eq_nil_iff.mpr all]
  rfl

theorem cut_append (absent : separator ∉ text) (rest : List Char) :
    cut separator (text ++ separator :: rest) = (text, some rest) := by
  have all : ∀ c ∈ text, decide (c ≠ separator) = true := fun c inside =>
    decide_eq_true fun same => absent (same ▸ inside)
  rw [cut_eq, List.takeWhile_append_of_pos all, List.dropWhile_append_of_pos all]
  simp

theorem subset_of_mem_splitAt (inside : part ∈ splitAt separator text) : part ⊆ text := by
  induction text generalizing part with
  | nil =>
      rw [splitAt, List.mem_singleton] at inside
      exact inside ▸ List.Subset.refl _
  | cons c rest ih =>
      rw [splitAt] at inside
      split at inside
      · rcases List.mem_cons.mp inside with rfl | later
        · exact List.nil_subset _
        · exact List.Subset.trans (ih later) (List.subset_cons_self ..)
      · split at inside
        · rename_i none_left
          exact absurd none_left (splitAt_ne_nil separator rest)
        · rename_i first parts parted
          rcases List.mem_cons.mp inside with rfl | later
          · exact List.cons_subset_cons c (ih (by simp [parted]))
          · exact List.Subset.trans (ih (by simp [parted, later])) (List.subset_cons_self ..)

theorem not_mem_joinWith {c : Char} {separator : List Char} {parts : List (List Char)}
    (between : c ∉ separator) (outside : ∀ part ∈ parts, c ∉ part) :
    c ∉ joinWith separator parts := by
  induction parts with
  | nil => exact List.not_mem_nil
  | cons part parts ih =>
      rw [List.forall_mem_cons] at outside
      cases parts with
      | nil => exact outside.1
      | cons next parts =>
          rw [joinWith_cons separator part (by simp), List.mem_append, List.mem_append, not_or, not_or]
          exact ⟨⟨outside.1, between⟩, ih outside.2⟩

theorem splitAt_joinWith {parts : List (List Char)} (some : parts ≠ [])
    (absent : ∀ part ∈ parts, separator ∉ part) :
    splitAt separator (joinWith [separator] parts) = parts := by
  induction parts with
  | nil => exact absurd rfl some
  | cons part parts ih =>
      rw [List.forall_mem_cons] at absent
      cases parts with
      | nil => exact splitAt_of_not_mem absent.1
      | cons next parts =>
          have more : next :: parts ≠ [] := List.cons_ne_nil next parts
          rw [joinWith_cons _ _ more, List.append_assoc, List.singleton_append,
            splitAt_append absent.1, ih more absent.2]

theorem head?_joinWith {between : List Char} {parts : List (List Char)} (some : part ≠ []) :
    (joinWith between (part :: parts)).head? = part.head? := by
  obtain ⟨c, rest, rfl⟩ := List.exists_cons_of_ne_nil some
  cases parts with
  | nil => rfl
  | cons next parts =>
      rw [joinWith_cons _ _ (List.cons_ne_nil next parts), List.append_assoc]
      rfl

theorem getLast?_joinWith {between : List Char} {parts : List (List Char)} (some : part ≠ []) :
    (joinWith between (parts ++ [part])).getLast? = part.getLast? := by
  induction parts with
  | nil => rfl
  | cons first parts ih =>
      rw [List.cons_append, joinWith_cons _ _ (by simp), List.getLast?_append, ih]
      rw [List.getLast?_eq_some_getLast some, Option.some_or]

end Cutting

/-! Replacing. -/

section Replacing

variable {pattern : List Char} (replacement : List Char)

theorem replaceFrom_eq_drop (pattern text : List Char) (skip : Nat) :
    replaceFrom pattern replacement text skip =
      replaceFrom pattern replacement (text.drop skip) 0 := by
  induction text generalizing skip with
  | nil => simp [replaceFrom]
  | cons c rest ih =>
      cases skip with
      | zero => rfl
      | succ skip => rw [replaceFrom, ih, List.drop_succ_cons]

theorem replace_nil (pattern : List Char) : replace pattern replacement [] = [] := by
  unfold replace
  split <;> simp [replaceFrom]

theorem replace_append (some : pattern ≠ []) (rest : List Char) :
    replace pattern replacement (pattern ++ rest) =
      replacement ++ replace pattern replacement rest := by
  obtain ⟨c, pattern, rfl⟩ := List.exists_cons_of_ne_nil some
  have found : after? (c :: pattern) (c :: (pattern ++ rest)) = Option.some rest :=
    after?_eq_some_iff.mpr rfl
  unfold replace
  rw [if_neg (by simp), if_neg (by simp), List.cons_append, replaceFrom, found]
  simp [replaceFrom_eq_drop replacement _ (pattern ++ rest)]

theorem replace_cons (some : pattern ≠ []) {c : Char} {rest : List Char}
    (other : ¬ pattern <+: c :: rest) :
    replace pattern replacement (c :: rest) = c :: replace pattern replacement rest := by
  have missed : after? pattern (c :: rest) = none :=
    Option.eq_none_iff_forall_ne_some.mpr fun after found =>
      other ⟨after, (after?_eq_some_iff.mp found).symm⟩
  have given : pattern.isEmpty = false := List.isEmpty_eq_false_iff.mpr some
  simp only [replace, given, Bool.false_eq_true, if_false]
  rw [replaceFrom, missed]

theorem replace_singleton (c : Char) (text : List Char) :
    replace [c] replacement text = text.flatMap fun d => if d = c then replacement else [d] := by
  induction text with
  | nil => exact replace_nil replacement [c]
  | cons d rest ih =>
      rw [List.flatMap_cons, ← ih]
      by_cases same : d = c
      · rw [if_pos same, same]
        exact replace_append replacement (List.cons_ne_nil c []) rest
      · have other : ¬[c] <+: d :: rest := fun begins =>
          same (List.cons_prefix_cons.mp begins).1.symm
        rw [if_neg same, replace_cons replacement (List.cons_ne_nil c []) other]
        rfl

end Replacing

end ApiCompiler.Text
