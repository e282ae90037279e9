/-!
Values by name in the order in which the names came first.
-/

namespace ApiCompiler

abbrev Named (α : Type) := List (String × α)

namespace Named

variable {α : Type}

/-- Gives a name a value: in place if it has one already, else at the end. -/
def put (name : String) (value : α) : Named α → Named α
  | [] => [(name, value)]
  | (other, old) :: rest =>
      if other = name then (name, value) :: rest else (other, old) :: put name value rest

/-- The names afterwards: a new one comes last, and no other one moves. -/
theorem map_fst_put (name : String) (value : α) (values : Named α) :
    (values.put name value).map Prod.fst =
      if name ∈ values.map Prod.fst then values.map Prod.fst
      else values.map Prod.fst ++ [name] := by
  induction values with
  | nil => simp [put]
  | cons first rest ih =>
      obtain ⟨other, old⟩ := first
      simp only [put]
      split
      · rename_i same
        simp [same]
      · rename_i different
        simp only [List.map_cons, ih, List.mem_cons, Ne.symm different, false_or]
        split <;> simp

theorem mem_put {name : String} {value : α} {values : Named α} {pair : String × α}
    (member : pair ∈ values.put name value) : pair = (name, value) ∨ pair ∈ values := by
  induction values with
  | nil => exact .inl (by simpa [put] using member)
  | cons first rest ih =>
      obtain ⟨other, old⟩ := first
      simp only [put] at member
      split at member
      · rcases List.mem_cons.mp member with new | later
        · exact .inl new
        · exact .inr (List.mem_cons_of_mem _ later)
      · rcases List.mem_cons.mp member with kept | later
        · exact .inr (by simp [kept])
        · exact (ih later).imp_right (List.mem_cons_of_mem _)

theorem nodup_put (name : String) (value : α) {values : Named α}
    (distinct : (values.map Prod.fst).Nodup) : ((values.put name value).map Prod.fst).Nodup := by
  rw [map_fst_put]
  split
  · exact distinct
  · rename_i new
    refine List.nodup_append.mpr ⟨distinct, by simp, ?_⟩
    rintro other member last single rfl
    rw [List.mem_singleton] at single
    exact new (single ▸ member)

theorem put_of_not_mem {name : String} {values : Named α} (new : name ∉ values.map Prod.fst)
    (value : α) : values.put name value = values ++ [(name, value)] := by
  induction values with
  | nil => rfl
  | cons first rest ih =>
      obtain ⟨other, old⟩ := first
      rw [List.map_cons, List.mem_cons, not_or] at new
      rw [put, if_neg (Ne.symm new.1), ih new.2]
      rfl

/-- Values laid over others: those of the same name in place, the rest at the end. -/
def override (base own : Named α) : Named α :=
  own.foldl (fun values (name, value) => values.put name value) base

/-- A list in which a name may come again: its last value counts, at its first place. -/
def ofList (values : List (String × α)) : Named α :=
  override [] values

theorem mem_override {base own : Named α} {pair : String × α} (member : pair ∈ base.override own) :
    pair ∈ own ∨ pair ∈ base := by
  induction own generalizing base with
  | nil => exact .inr member
  | cons first own ih =>
      rcases ih member with later | earlier
      · exact .inl (List.mem_cons_of_mem _ later)
      · exact (mem_put earlier).imp_left (by simp +contextual)

theorem mem_map_fst_override {name : String} {base own : Named α} :
    name ∈ (base.override own).map Prod.fst ↔ name ∈ base.map Prod.fst ∨ name ∈ own.map Prod.fst := by
  induction own generalizing base with
  | nil => simp [override]
  | cons first own ih =>
      refine (@ih (base.put first.1 first.2)).trans ?_
      rw [map_fst_put, List.map_cons, List.mem_cons, ← or_assoc]
      refine or_congr_left ?_
      split
      · rename_i known
        exact ⟨.inl, fun either => either.elim id fun same => same ▸ known⟩
      · rw [List.mem_append, List.mem_singleton]

theorem nodup_override {base : Named α} (distinct : (base.map Prod.fst).Nodup) (own : Named α) :
    ((base.override own).map Prod.fst).Nodup := by
  induction own generalizing base with
  | nil => exact distinct
  | cons first own ih => exact ih (nodup_put first.1 first.2 distinct)

theorem override_of_nodup {base own : Named α} (distinct : ((base ++ own).map Prod.fst).Nodup) :
    base.override own = base ++ own := by
  induction own generalizing base with
  | nil => simp [override]
  | cons first own ih =>
      obtain ⟨name, value⟩ := first
      have new : name ∉ base.map Prod.fst := by
        rw [List.map_append, List.nodup_append] at distinct
        exact fun inside => distinct.2.2 name inside name (by simp) rfl
      have step : base.override ((name, value) :: own) = (base ++ [(name, value)]).override own :=
        congrArg (override · own) (put_of_not_mem new value)
      rw [step, ih (by simpa using distinct)]
      simp

theorem ofList_of_nodup {values : List (String × α)} (distinct : (values.map Prod.fst).Nodup) :
    ofList values = values :=
  @override_of_nodup α [] values distinct

theorem mem_ofList {values : List (String × α)} {pair : String × α}
    (member : pair ∈ ofList values) : pair ∈ values :=
  (mem_override member).resolve_right List.not_mem_nil

theorem nodup_ofList (values : List (String × α)) : ((ofList values).map Prod.fst).Nodup :=
  @nodup_override α [] List.nodup_nil values

end Named

end ApiCompiler
