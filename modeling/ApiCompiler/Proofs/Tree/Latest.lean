import Mathlib.Data.List.Induction
import ApiCompiler.Tree.Named

/-!
Names that come again in a list: merging keeps the place of the first and the content of the last.
-/

namespace ApiCompiler

section Repetition

variable {α : Type} [BEq α] [LawfulBEq α]

theorem nodup_eraseDups : (list : List α) → list.eraseDups.Nodup
  | [] => by simp
  | a :: list => by
      rw [List.eraseDups_cons, List.nodup_cons]
      exact ⟨by simp, nodup_eraseDups (list.filter fun b => !b == a)⟩
termination_by list => list.length
decreasing_by exact Nat.lt_succ_of_le (List.length_filter_le _ _)

theorem eraseDups_concat (list : List α) (a : α) :
    (list ++ [a]).eraseDups = if a ∈ list then list.eraseDups else list.eraseDups ++ [a] := by
  rw [List.eraseDups_append, List.removeAll]
  split
  · rename_i known
    simp [known]
  · rename_i new
    simp [new, List.eraseDups_cons]

theorem eraseDups_append_cons {list : List α} {a : α} (known : a ∈ list) (rest : List α) :
    (list ++ a :: rest).eraseDups = (list ++ rest).eraseDups := by
  rw [List.eraseDups_append, List.eraseDups_append, List.removeAll, List.removeAll,
    List.filter_cons_of_neg (by simpa using known)]

end Repetition

/-- An item of a list that no item of the same name follows. -/
def IsLast {α : Type} (nameOf : α → String) (a : α) (list : List α) : Prop :=
  ∃ before after, list = before ++ a :: after ∧ ∀ b ∈ after, nameOf b ≠ nameOf a

section Last

variable {α : Type} {nameOf : α → String} {a b : α} {list : List α}

theorem not_isLast_nil : ¬IsLast nameOf a [] := by
  rintro ⟨before, after, split, -⟩
  exact absurd split.symm (by simp)

theorem IsLast.mem (last : IsLast nameOf a list) : a ∈ list := by
  obtain ⟨before, after, rfl, -⟩ := last
  simp

theorem isLast_concat :
    IsLast nameOf a (list ++ [b]) ↔ a = b ∨ (nameOf b ≠ nameOf a ∧ IsLast nameOf a list) := by
  constructor
  · rintro ⟨before, after, split, others⟩
    cases after using List.reverseRecOn with
    | nil =>
        obtain ⟨-, same⟩ := List.append_inj' split rfl
        exact .inl (List.singleton_inj.mp same).symm
    | append_singleton after c =>
        rw [← List.cons_append, ← List.append_assoc] at split
        obtain ⟨rfl, same⟩ := List.append_inj' split rfl
        obtain rfl := List.singleton_inj.mp same
        refine .inr ⟨others b (by simp), before, after, rfl, fun d member => ?_⟩
        exact others d (List.mem_append_left _ member)
  · rintro (rfl | ⟨different, before, after, rfl, others⟩)
    · exact ⟨list, [], rfl, nofun⟩
    · refine ⟨before, after ++ [b], by simp, fun c member => ?_⟩
      rcases List.mem_append.mp member with early | late
      · exact others c early
      · rwa [List.mem_singleton.mp late]

theorem IsLast.append_left {later : List α} (last : IsLast nameOf a later) (list : List α) :
    IsLast nameOf a (list ++ later) := by
  obtain ⟨before, after, rfl, others⟩ := last
  exact ⟨list ++ before, after, (List.append_assoc ..).symm, others⟩

theorem IsLast.append_right {later : List α} (last : IsLast nameOf a list)
    (apart : nameOf a ∉ later.map nameOf) : IsLast nameOf a (list ++ later) := by
  obtain ⟨before, after, rfl, others⟩ := last
  refine ⟨before, after ++ later, by simp, fun b member => ?_⟩
  rcases List.mem_append.mp member with early | late
  · exact others b early
  · exact fun same => apart (List.mem_map.mpr ⟨b, late, same⟩)

theorem isLast_map {β : Type} {f : β → α} (injective : Function.Injective f) (nameOf : α → String)
    {c : β} {items : List β} :
    IsLast nameOf (f c) (items.map f) ↔ IsLast (fun item => nameOf (f item)) c items := by
  induction items using List.reverseRecOn with
  | nil => exact iff_of_false not_isLast_nil not_isLast_nil
  | append_singleton items item ih =>
      rw [List.map_append, List.map_singleton, isLast_concat, isLast_concat, ih, injective.eq_iff]

end Last

namespace Named

variable {α : Type}

theorem ofList_concat (values : List (String × α)) (name : String) (value : α) :
    ofList (values ++ [(name, value)]) = (ofList values).put name value := by
  simp [ofList, override, List.foldl_append]

theorem ofList_append (first second : List (String × α)) :
    ofList (first ++ second) = (ofList first).override second :=
  List.foldl_append

/-- What is left of a list may stand for it in front of another one. -/
theorem ofList_ofList_append (first second : List (String × α)) :
    ofList (ofList first ++ second) = ofList (first ++ second) := by
  rw [ofList_append, ofList_append, ofList_of_nodup (nodup_ofList first)]

theorem mem_put_iff {values : Named α} (distinct : (values.map Prod.fst).Nodup) {name : String}
    {value : α} {pair : String × α} :
    pair ∈ values.put name value ↔ pair = (name, value) ∨ (name ≠ pair.1 ∧ pair ∈ values) := by
  induction values with
  | nil => simp [put]
  | cons first rest ih =>
      obtain ⟨other, old⟩ := first
      obtain ⟨apart, distinct⟩ := List.nodup_cons.mp distinct
      rw [put]
      split
      · rename_i same
        subst same
        have elsewhere : pair ∈ rest → other ≠ pair.1 := by
          intro member known
          exact apart (List.mem_map.mpr ⟨pair, member, known.symm⟩)
        constructor
        · intro member
          rcases List.mem_cons.mp member with rfl | later
          · exact .inl rfl
          · exact .inr ⟨elsewhere later, List.mem_cons_of_mem _ later⟩
        · rintro (rfl | ⟨different, member⟩)
          · exact List.mem_cons_self
          · rcases List.mem_cons.mp member with rfl | later
            · exact absurd rfl different
            · exact List.mem_cons_of_mem _ later
      · rename_i different
        rw [List.mem_cons, ih distinct, List.mem_cons]
        constructor
        · rintro (rfl | rfl | ⟨apart, later⟩)
          · exact .inr ⟨Ne.symm different, .inl rfl⟩
          · exact .inl rfl
          · exact .inr ⟨apart, .inr later⟩
        · rintro (rfl | ⟨apart, rfl | later⟩)
          · exact .inr (.inl rfl)
          · exact .inl rfl
          · exact .inr (.inr ⟨apart, later⟩)

/-- What is left of a list under its names is what came last under each. -/
theorem mem_ofList_iff {values : List (String × α)} {pair : String × α} :
    pair ∈ ofList values ↔ IsLast Prod.fst pair values := by
  induction values using List.reverseRecOn with
  | nil => exact iff_of_false List.not_mem_nil not_isLast_nil
  | append_singleton values last ih =>
      rw [ofList_concat, mem_put_iff (nodup_ofList values), ih, isLast_concat]

theorem map_fst_ofList (values : List (String × α)) :
    (ofList values).map Prod.fst = (values.map Prod.fst).eraseDups := by
  induction values using List.reverseRecOn with
  | nil => rfl
  | append_singleton values last ih =>
      rw [ofList_concat, map_fst_put, ih, List.map_append, List.map_singleton, eraseDups_concat]
      simp only [List.mem_eraseDups]

end Named

end ApiCompiler
