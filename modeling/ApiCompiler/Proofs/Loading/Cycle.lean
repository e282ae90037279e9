import ApiCompiler.Proofs.Loading.Search

/-!
A search for cycles comes to its end, and then the cycle it was made for is known.
-/

namespace ApiCompiler.Loading

open Relation

/-! The end of a search. -/

namespace Survey

variable {survey : Survey}

def unmet (index : List (String × Nat)) (edges : List (String × List String)) : Nat :=
  ((edges.filter fun edge => (index.lookup edge.1).isNone).flatMap Prod.snd).length

theorem unmet_cons (index : List (String × Nat)) (key : String) (links : List String)
    (edges : List (String × List String)) :
    unmet index ((key, links) :: edges) =
      (if (index.lookup key).isNone then links.length else 0) + unmet index edges := by
  rw [unmet, List.filter_cons]
  split <;> simp [unmet]

theorem unmet_nil (edges : List (String × List String)) :
    unmet [] edges = (edges.flatMap Prod.snd).length := by
  have all : ∀ edge ∈ edges, (([] : List (String × Nat)).lookup edge.1).isNone := fun _ _ => rfl
  rw [unmet, List.filter_eq_self.mpr all]

theorem unmet_enter {index : List (String × Nat)} {link : String}
    (new : index.lookup link = none) (number : Nat) (edges : List (String × List String)) :
    unmet ((link, number) :: index) edges + ((edges.lookup link).getD []).length ≤
      unmet index edges := by
  induction edges with
  | nil => exact Nat.le_refl _
  | cons edge edges ih =>
      obtain ⟨key, links⟩ := edge
      rw [unmet_cons, unmet_cons]
      by_cases same : key = link
      · have met : ((link, number) :: index).lookup link = some number := by simp
        have all : ((link, links) :: edges).lookup link = some links := by simp
        rw [same, met, all, new, Option.getD_some]
        simp
        omega
      · rw [lookup_cons_of_ne same, lookup_cons_of_ne (Ne.symm same)]
        omega

/-- A bound on the steps that a search still takes. -/
def remaining (survey : Survey) (search : Search) : Nat :=
  search.path.length + 2 * (search.path.flatMap Prod.snd).length +
    2 * unmet search.index survey.edges

theorem remaining_lt_of_moves {search after : Search} (moves : search.Moves survey.successors after)
    (underway : search.path ≠ []) : survey.remaining after < survey.remaining search := by
  rw [remaining, remaining]
  cases moves with
  | rest done => exact absurd done underway
  | leave left =>
      rw [left, Search.leave_path, Search.leave_index]
      simp
  | skip ahead _ =>
      rw [ahead]
      simp
  | lower ahead _ =>
      rw [ahead]
      simp [Search.lower]
  | enter ahead _ new =>
      have fewer := unmet_enter new search.index.length survey.edges
      rw [ahead]
      simp only [Search.enter, List.flatMap_cons, List.length_append, List.length_cons, successors]
      omega

theorem path_run_eq_nil {search : Search} {steps : Nat} (enough : survey.remaining search ≤ steps) :
    (Search.run survey.successors steps search).path = [] := by
  induction steps generalizing search with
  | zero =>
      cases left : search.path with
      | nil => exact left
      | cons frame path =>
          rw [remaining, left, List.length_cons] at enough
          omega
  | succ steps ih =>
      rw [Search.run]
      split
      · exact List.isEmpty_iff.mp ‹_›
      · have less := survey.remaining_lt_of_moves (search.step_moves _) fun done =>
          ‹¬_› (List.isEmpty_iff.mpr done)
        exact ih (by omega)

/-- Every search comes to its end. -/
theorem path_search_eq_nil (survey : Survey) (cycles : Cycles) (start : String) :
    (survey.search cycles start).path = [] := by
  refine path_run_eq_nil ?_
  have fewer := @unmet_enter [] start rfl 0 survey.edges
  have all := unmet_nil survey.edges
  rw [remaining, enoughSteps, Search.enter]
  simp only [List.flatMap_cons, List.flatMap_nil, List.append_nil, List.length_cons,
    List.length_nil, successors]
  omega

/-! The cycles of a survey. -/

variable {cycles : Cycles}

/-- A search finds the cycle it is made for, and keeps those that are known. -/
theorem exact_findCycle (known : cycles.Exact survey.successors) (start : String) :
    (survey.findCycle cycles start).Exact survey.successors ∧
      (survey.findCycle cycles start).Knows start ∧
      ∀ key cycle, cycles.lookup key = some cycle →
        (survey.findCycle cycles start).lookup key = some cycle := by
  rw [findCycle]
  split
  · exact ⟨known, ‹_›, fun _ _ listed => listed⟩
  · have begun : (Search.enter survey.successors { cycles } start).Sound survey.successors :=
      (Search.Sound.start known).enter rfl ‹_› nofun
    obtain ⟨after, kept, met⟩ := begun.run survey.enoughSteps
    have first : (survey.search cycles start).index.lookup start |>.isSome :=
      met start (by simp [Search.enter])
    have done := survey.path_search_eq_nil cycles start
    exact ⟨after.known, after.knows_of_path_eq_nil done first, kept⟩

theorem exact_foldl_findCycle (known : cycles.Exact survey.successors) (starts : List String) :
    (starts.foldl survey.findCycle cycles).Exact survey.successors ∧
      (∀ start ∈ starts, (starts.foldl survey.findCycle cycles).Knows start) ∧
      ∀ key, cycles.Knows key → (starts.foldl survey.findCycle cycles).Knows key := by
  induction starts generalizing cycles with
  | nil => exact ⟨known, nofun, fun _ listed => listed⟩
  | cons start starts ih =>
      obtain ⟨first, found, kept⟩ := survey.exact_findCycle known start
      obtain ⟨all, others, still⟩ := ih first
      refine ⟨all, List.forall_mem_cons.mpr ⟨still start found, others⟩, fun key listed => ?_⟩
      obtain ⟨cycle, listed⟩ := Option.isSome_iff_exists.mp listed
      exact still key (Option.isSome_of_eq_some (kept key cycle listed))

theorem mem_cycleOf (survey : Survey) {key other : String} :
    other ∈ survey.cycleOf key ↔ Mutual survey.successors key other := by
  obtain ⟨known, all, -⟩ := survey.exact_foldl_findCycle .nil (survey.edges.map Prod.fst)
  rw [cycleOf]
  cases found : survey.cycles.lookup key with
  | some cycle => exact known.members key cycle found other
  | none =>
      have unexplored : survey.successors key = [] := by
        rw [successors]
        cases listed : survey.edges.lookup key with
        | none => rfl
        | some links =>
            obtain ⟨before, after, split, -⟩ := List.lookup_eq_some_iff.mp listed
            have explored : key ∈ survey.edges.map Prod.fst := by simp [split]
            have known := all key explored
            rw [Cycles.Knows, ← cycles, found] at known
            cases known
      constructor
      · exact fun inside => absurd inside List.not_mem_nil
      · rintro ⟨there, -⟩
        obtain ⟨first, step, -⟩ := TransGen.head'_iff.mp there
        rw [Step, unexplored] at step
        cases step

/-- Two targets on a cycle, one that refers to itself, and one that the others only lead to. -/
example :
    let survey : Survey :=
      { edges := [("a", ["b"]), ("b", ["c", "a"]), ("c", ["c", "d"]), ("d", [])] }
    survey.cycles = [("b", ["b", "a"]), ("a", ["b", "a"]), ("c", ["c"]), ("d", [])] := by
  decide +kernel

/--
After any searches before, a search comes to its end with the cycle of its target: what the target
leads to and is led to from. All that is known then is true likewise, and what was known before stays.
-/
theorem findCycle_exact (survey : Survey) (earlier : List String) (start : String) :
    let before := earlier.foldl survey.findCycle []
    let after := survey.findCycle before start
    (survey.search before start).path = [] ∧
      (∃ cycle, after.lookup start = some cycle) ∧
      (∀ key cycle, after.lookup key = some cycle →
        cycle.Nodup ∧ ∀ other, other ∈ cycle ↔ Mutual survey.successors key other) ∧
      ∀ key cycle, before.lookup key = some cycle → after.lookup key = some cycle := by
  intro before after
  obtain ⟨known, -, -⟩ := survey.exact_foldl_findCycle .nil earlier
  obtain ⟨exactly, found, kept⟩ := survey.exact_findCycle known start
  exact ⟨survey.path_search_eq_nil before start, Option.isSome_iff_exists.mp found,
    fun key cycle listed => ⟨exactly.distinct key cycle listed, exactly.members key cycle listed⟩,
    kept⟩

end Survey

end ApiCompiler.Loading
