import Mathlib.Data.List.Perm.Basic
import ApiCompiler.Tree.Value

/-!
Objects in which no two names stand for the same member: the order of their members makes no difference
to what is found in them, nor to what is laid over them.
-/

namespace ApiCompiler

namespace Scalar

theorem sameName_comm (a b : Scalar) : a.sameName b = b.sameName a := by
  unfold sameName
  cases a.integer? <;> cases b.integer? <;> try rfl
  · cases a <;> cases b <;> simp [Timestamp.sameInstant, eq_comm]
    rename_i x y
    by_cases same : x = y
    · rw [same]
    · simp [same]
  · simp [eq_comm]

theorem sameName_trans {a b c : Scalar} (first : a.sameName b = true)
    (second : b.sameName c = true) : a.sameName c = true := by
  unfold sameName at *
  cases ha : a.integer? <;> cases hb : b.integer? <;> cases hc : c.integer? <;>
    simp_all only [Bool.false_eq_true, decide_eq_true_eq]
  cases a <;> cases b <;> try contradiction
  all_goals cases c <;> try contradiction
  all_goals simp_all [Timestamp.sameInstant]

end Scalar

namespace Members

variable {ν : Type} {members members' base base' own own' : Members ν} {name : Scalar} {value : ν}

/-- No two of the names stand for the same member. -/
def Distinct (members : Members ν) : Prop :=
  (members.map Prod.fst).Pairwise fun first second => first.sameName second = false

theorem Distinct.perm (distinct : Distinct members) (moved : members.Perm members') :
    Distinct members' :=
  ((moved.map Prod.fst).pairwise_iff fun apart => (Scalar.sameName_comm ..).trans apart).mp distinct

theorem Distinct.sublist (distinct : Distinct members) (part : members'.Sublist members) :
    Distinct members' :=
  List.Pairwise.sublist (part.map Prod.fst) distinct

theorem distinct_cons {first : Scalar × ν} :
    Distinct (first :: members) ↔
      (∀ name ∈ members.map Prod.fst, first.1.sameName name = false) ∧ Distinct members :=
  List.pairwise_cons

/-! What is found. -/

theorem find?_perm (distinct : Distinct members) (moved : members.Perm members') (name : String) :
    members.find? name = members'.find? name := by
  induction moved with
  | nil => rfl
  | cons first moved ih =>
      rw [find?, find?, ih (distinct_cons.mp distinct).2]
  | swap first second rest =>
      have apart := (distinct_cons.mp distinct).1 first.1 (by simp)
      rw [find?, find?, find?, find?]
      by_cases here : first.1 = .text name
      · by_cases there : second.1 = .text name
        · rw [here, there] at apart
          simp [Scalar.sameName, Scalar.integer?] at apart
        · simp only [if_pos here, if_neg there]
      · simp only [if_neg here]
  | trans moved moved' ih ih' => rw [ih distinct, ih' (distinct.perm moved)]

/-! One member laid over others. -/

theorem map_fst_put (members : Members ν) (name : Scalar) (value : ν) :
    (members.put name value).map Prod.fst =
      if (members.map Prod.fst).any (·.sameName name) then members.map Prod.fst
      else members.map Prod.fst ++ [name] := by
  induction members with
  | nil => rfl
  | cons first members ih =>
      obtain ⟨key, old⟩ := first
      rw [put]
      split
      · rename_i same
        simp [same]
      · rename_i apart
        rw [Bool.not_eq_true] at apart
        simp only [List.map_cons, ih, List.any_cons, apart, Bool.false_or]
        split <;> rfl

theorem Distinct.put (distinct : Distinct members) (name : Scalar) (value : ν) :
    Distinct (members.put name value) := by
  rw [Distinct, map_fst_put]
  split
  · exact distinct
  · rename_i new
    refine List.pairwise_append.mpr ⟨distinct, by simp, fun other inside last single => ?_⟩
    rw [List.mem_singleton.mp single]
    simp only [List.any_eq_true, not_exists, not_and, Bool.not_eq_true] at new
    exact new other inside

theorem put_perm (distinct : Distinct members) (moved : members.Perm members') (name : Scalar)
    (value : ν) : (members.put name value).Perm (members'.put name value) := by
  induction moved with
  | nil => exact .refl _
  | cons first moved ih =>
      obtain ⟨key, old⟩ := first
      rw [put, put]
      split
      · exact moved.cons _
      · exact (ih (distinct_cons.mp distinct).2).cons _
  | swap first second rest =>
      obtain ⟨key, old⟩ := first
      obtain ⟨other, old'⟩ := second
      have apart := (distinct_cons.mp distinct).1 key (by simp)
      rw [put, put, put, put]
      -- Only one of the two can have the name, or they would have each other's.
      by_cases here : key.sameName name = true
      · have elsewhere : ¬other.sameName name = true := fun there => by
          rw [Scalar.sameName_trans there ((Scalar.sameName_comm ..).trans here)] at apart
          cases apart
        simp only [if_pos here, if_neg elsewhere]
        exact .swap ..
      · simp only [if_neg here]
        split
        · exact .swap ..
        · exact .swap ..
  | trans moved moved' ih ih' => exact (ih distinct).trans (ih' (distinct.perm moved))

theorem put_comm {other : Scalar} (apart : name.sameName other = false) (members : Members ν)
    (value value' : ν) :
    ((members.put name value).put other value').Perm ((members.put other value').put name value) := by
  have apart' := (Scalar.sameName_comm other name).trans apart
  induction members with
  | nil =>
      rw [put, put, put, if_neg (by simp [apart]), put, put, put, if_neg (by simp [apart'])]
      exact .swap ..
  | cons first members ih =>
      obtain ⟨key, old⟩ := first
      rw [put, put]
      by_cases here : key.sameName name = true
      · have elsewhere : ¬key.sameName other = true := fun there => by
          rw [Scalar.sameName_trans ((Scalar.sameName_comm ..).trans here) there] at apart
          cases apart
        rw [if_pos here, if_neg elsewhere, put, put, if_neg elsewhere, if_pos here]
      · rw [if_neg here]
        split
        · rename_i there
          rw [put, put, if_pos there, if_neg here]
        · rename_i elsewhere
          rw [put, put, if_neg elsewhere, if_neg here]
          exact ih.cons _

/-! Members laid over others. -/

theorem override_cons (base own : Members ν) (first : Scalar × ν) :
    base.override (first :: own) = (base.put first.1 first.2).override own := rfl

theorem Distinct.override (distinct : Distinct base) (own : Members ν) :
    Distinct (base.override own) := by
  induction own generalizing base with
  | nil => exact distinct
  | cons first own ih => exact ih (distinct.put first.1 first.2)

theorem override_perm (distinct : Distinct base) (moved : base.Perm base') (own : Members ν) :
    (base.override own).Perm (base'.override own) := by
  induction own generalizing base base' with
  | nil => exact moved
  | cons first own ih =>
      exact ih (distinct.put first.1 first.2) (put_perm distinct moved first.1 first.2)

theorem override_own_perm (distinct : Distinct base) (distinct' : Distinct own)
    (moved : own.Perm own') : (base.override own).Perm (base.override own') := by
  induction moved generalizing base with
  | nil => exact .refl _
  | cons first moved ih =>
      exact ih (distinct.put first.1 first.2) (distinct_cons.mp distinct').2
  | swap first second rest =>
      have apart := (distinct_cons.mp distinct').1 first.1 (by simp)
      exact override_perm ((distinct.put ..).put ..) (put_comm apart base second.2 first.2) rest
  | trans moved moved' ih ih' =>
      exact (ih distinct distinct').trans (ih' distinct (distinct'.perm moved))

end Members

end ApiCompiler
