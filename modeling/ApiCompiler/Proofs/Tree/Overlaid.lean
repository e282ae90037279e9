import ApiCompiler.Proofs.Tree.Distinct

/-!
What members laid over others come to: every member stays where it is, with the last value that is laid
over it; names that are new follow in the order in which they first appear, with their last values.
-/

namespace ApiCompiler.Members

variable {ν : Type}

/-- The value that comes last under a name. -/
def last? (name : Scalar) : Members ν → Option ν
  | [] => none
  | (other, value) :: rest => (last? name rest).or (if name.sameName other then some value else none)

/-- Members where they are, with the values that are given for their names; of one name, the first. -/
def renewed (above : Scalar → Option ν) : Members ν → Members ν
  | [] => []
  | (name, old) :: rest =>
      (name, (above name).getD old) ::
        renewed (fun other => if name.sameName other then none else above other) rest

/-- The members under names other than some, each name where it is first and with its last value. -/
def added (names : List Scalar) : Members ν → Members ν
  | [] => []
  | (name, value) :: rest =>
      if names.any (·.sameName name) then added names rest
      else (name, (last? name rest).getD value) :: added (names ++ [name]) rest

def overlaid (base own : Members ν) : Members ν :=
  base.renewed (own.last? ·) ++ own.added (base.map Prod.fst)

section Override

variable {base own : Members ν} {name : Scalar} {value : ν} {above : Scalar → Option ν}

theorem renewed_congr {other : Scalar → Option ν}
    (same : ∀ key ∈ base.map Prod.fst, above key = other key) :
    base.renewed above = base.renewed other := by
  induction base generalizing above other with
  | nil => rfl
  | cons first base ih =>
      obtain ⟨key, old⟩ := first
      rw [List.map_cons, List.forall_mem_cons] at same
      rw [renewed, renewed, same.1]
      refine congrArg _ (ih fun name inside => ?_)
      rw [same.2 name inside]

theorem put_of_absent (absent : (base.map Prod.fst).any (·.sameName name) = false) :
    base.put name value = base ++ [(name, value)] := by
  induction base with
  | nil => rfl
  | cons first base ih =>
      obtain ⟨key, old⟩ := first
      rw [List.map_cons, List.any_cons, Bool.or_eq_false_iff] at absent
      rw [put, if_neg (Bool.not_eq_true _ ▸ absent.1), ih absent.2, List.cons_append]

theorem renewed_concat (absent : (base.map Prod.fst).any (·.sameName name) = false) :
    renewed above (base ++ [(name, value)]) =
      base.renewed above ++ [(name, (above name).getD value)] := by
  induction base generalizing above with
  | nil => rfl
  | cons first base ih =>
      obtain ⟨key, old⟩ := first
      rw [List.map_cons, List.any_cons, Bool.or_eq_false_iff] at absent
      rw [List.cons_append, renewed, ih absent.2, renewed, List.cons_append, absent.1]
      rfl

/-- What is laid over one member is laid over the first of its name. -/
theorem renewed_put (present : (base.map Prod.fst).any (·.sameName name)) :
    renewed above (base.put name value) =
      base.renewed fun other =>
        (above other).or (if other.sameName name then some value else none) := by
  induction base generalizing above with
  | nil => cases present
  | cons first base ih =>
      obtain ⟨key, old⟩ := first
      rw [put, renewed]
      split
      · rename_i here
        rw [renewed]
        refine congr (congrArg _ (congrArg _ ?_)) (renewed_congr fun other _ => ?_)
        · cases above key <;> rfl
        · -- No later member of the name is met again, so there the two say the same.
          split
          · rfl
          · rename_i apart
            have elsewhere : other.sameName name = false := by
              refine Bool.eq_false_iff.mpr fun there => apart ?_
              exact Scalar.sameName_trans here ((Scalar.sameName_comm ..).trans there)
            rw [elsewhere]
            exact (Option.or_none).symm
      · rename_i apart
        rw [List.map_cons, List.any_cons, Bool.or_eq_true, or_iff_right apart] at present
        rw [Bool.not_eq_true] at apart
        rw [renewed, ih present]
        refine congr (congrArg _ (congrArg _ ?_)) (renewed_congr fun other _ => ?_)
        · exact congrArg (Option.getD · old) (Option.or_none).symm
        · split
          · rename_i same
            have elsewhere : other.sameName name = false := by
              refine Bool.eq_false_iff.mpr fun there => ?_
              rw [Scalar.sameName_trans same there] at apart
              cases apart
            rw [elsewhere]
            rfl
          · rfl

theorem override_eq_overlaid (base own : Members ν) : base.override own = base.overlaid own := by
  induction own generalizing base with
  | nil =>
      have kept : ∀ base : Members ν, base.renewed (fun _ => none) = base := by
        intro base
        induction base with
        | nil => rfl
        | cons first base ih =>
            rw [renewed]
            simp only [ite_self, ih]
            rfl
      rw [overlaid, added, List.append_nil]
      exact (kept base).symm
  | cons first own ih =>
      obtain ⟨name, value⟩ := first
      rw [override_cons, ih, overlaid, overlaid, map_fst_put, added]
      split
      · rename_i present
        rw [renewed_put present]
        rfl
      · rename_i absent
        rw [Bool.not_eq_true] at absent
        rw [put_of_absent absent, renewed_concat absent, List.append_assoc]
        refine congr (congrArg _ (renewed_congr fun other inside => ?_)) rfl
        have apart : other.sameName name = false := by
          simp only [List.any_eq_false, Bool.not_eq_true] at absent
          exact absent other inside
        rw [last?, apart]
        exact (Option.or_none).symm

end Override

end ApiCompiler.Members
