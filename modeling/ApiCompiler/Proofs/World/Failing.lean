import Mathlib.Data.List.Forall2
import ApiCompiler.World.Failure

/-!
When a computation has a result, and what it may fail with.
-/

namespace ApiCompiler

theorem bind_eq_ok {ε α β : Type} {first : Except ε α} {next : α → Except ε β} {b : β} :
    first >>= next = .ok b ↔ ∃ a, first = .ok a ∧ next a = .ok b := by
  cases first <;> simp [bind, Except.bind]

theorem map_eq_ok {ε α β : Type} {make : α → β} {first : Except ε α} {b : β} :
    make <$> first = .ok b ↔ ∃ a, first = .ok a ∧ make a = b := by
  cases first <;> simp [Functor.map, Except.map]

theorem map_eq_error {ε α β : Type} {make : α → β} {first : Except ε α} {error : ε} :
    make <$> first = .error error ↔ first = .error error := by
  cases first <;> simp [Functor.map, Except.map]

theorem eq_ok_of_toOption {ε α : Type} {result : Except ε α} {a : α}
    (kept : result.toOption = some a) : result = .ok a := by
  cases result with
  | error _ => cases kept
  | ok _ =>
      cases kept
      rfl

theorem forall₂_of_mapM_eq_ok {ε α β : Type} {make : α → Except ε β} {list : List α}
    {results : List β} (ok : list.mapM make = .ok results) :
    List.Forall₂ (fun a b => make a = .ok b) list results := by
  induction list generalizing results with
  | nil =>
      cases ok
      exact .nil
  | cons a list ih =>
      rw [List.mapM_cons] at ok
      obtain ⟨b, first, ok⟩ := bind_eq_ok.mp ok
      obtain ⟨rest, later, same⟩ := bind_eq_ok.mp ok
      cases same
      exact .cons first (ih later)

section Pairs

variable {ε α β γ : Type} {make : α → β → γ} {first : Except ε α} {second : Except ε β}

theorem pair_eq_ok {c : γ} :
    make <$> first <*> second = .ok c ↔ ∃ a b, first = .ok a ∧ second = .ok b ∧ make a b = c := by
  cases first <;> cases second <;> simp [Functor.map, Except.map, Seq.seq, Except.bind]

theorem pair_eq_error {error : ε} :
    make <$> first <*> second = .error error ↔
      first = .error error ∨ (∃ a, first = .ok a) ∧ second = .error error := by
  cases first <;> cases second <;> simp [Functor.map, Except.map, Seq.seq, Except.bind]

end Pairs

/-- Whatever the result fails with is allowed. -/
def FailsWith {α : Type} (allowed : Problem → Prop) (result : Except Problem α) : Prop :=
  ∀ problem, result = .error problem → allowed problem

namespace FailsWith

variable {α β : Type} {allowed : Problem → Prop}

theorem ok (a : α) : FailsWith allowed (.ok a) := by
  rintro _ ⟨⟩

theorem error {problem : Problem} (known : allowed problem) :
    FailsWith allowed (.error problem : Except Problem α) := by
  rintro _ ⟨⟩
  exact known

theorem bind {first : Except Problem α} {next : α → Except Problem β}
    (before : FailsWith allowed first) (after : ∀ a, FailsWith allowed (next a)) :
    FailsWith allowed (first >>= next) := by
  cases first with
  | ok a => exact after a
  | error problem => exact fun _ failed => before _ (Except.error.inj failed ▸ rfl)

theorem mapM {make : α → Except Problem β} (each : ∀ a, FailsWith allowed (make a)) :
    (list : List α) → FailsWith allowed (list.mapM make)
  | [] => ok []
  | a :: list => by
      rw [List.mapM_cons]
      exact (each a).bind fun _ => (mapM each list).bind fun _ => ok _

theorem optionMapM {make : α → Except Problem β} (each : ∀ a, FailsWith allowed (make a)) :
    (value : Option α) → FailsWith allowed (value.mapM make)
  | none => ok none
  | some a => (each a).bind fun _ => ok _

end FailsWith

def Logged.FailsWith {α : Type} (allowed : Problem → Prop) (computation : Logged α) : Prop :=
  ∀ log, ApiCompiler.FailsWith allowed (computation.run log).1

namespace Logged

variable {α β : Type} {allowed : Problem → Prop}

namespace FailsWith

theorem pure (a : α) : FailsWith allowed (Pure.pure a : Logged α) := by
  rintro _ _ ⟨⟩

theorem ofExcept {result : Except Problem α} (known : ApiCompiler.FailsWith allowed result) :
    FailsWith allowed (ofExcept result) := fun _ => known

theorem note (level : Level) (topic : Topic) (message : String) :
    FailsWith allowed (note level topic message) := by
  rintro _ _ ⟨⟩

theorem bind {first : Logged α} {next : α → Logged β} (before : FailsWith allowed first)
    (after : ∀ a, FailsWith allowed (next a)) : FailsWith allowed (first >>= next) := by
  intro log problem failed
  have unfolded : (first >>= next).run log =
      ExceptT.bindCont next (first.run log).1 (first.run log).2 := rfl
  have known := before log
  rw [unfolded] at failed
  rcases ran : first.run log with ⟨result, middle⟩
  rw [ran] at failed known
  cases result with
  | ok a => exact after a middle problem failed
  | error _ =>
      cases failed
      exact known problem rfl

theorem foldlM {step : β → α → Logged β} (each : ∀ b a, FailsWith allowed (step b a)) :
    (list : List α) → (start : β) → FailsWith allowed (list.foldlM step start)
  | [], start => pure start
  | a :: list, start => by
      rw [List.foldlM_cons]
      exact (each start a).bind fun next => foldlM each list next

end FailsWith

theorem foldlM_ok {step : β → α → Logged β} (holds : List α → β → Prop)
    (each : ∀ done a before after log log', holds done before →
      (step before a).run log = (.ok after, log') → holds (done ++ [a]) after)
    {list done : List α} {start final : β} {log log' : Log} (before : holds done start)
    (ran : (list.foldlM step start).run log = (.ok final, log')) : holds (done ++ list) final := by
  induction list generalizing done start log with
  | nil =>
      cases ran
      rw [List.append_nil]
      exact before
  | cons a list ih =>
      rw [List.foldlM_cons, run_bind_eq_ok] at ran
      obtain ⟨next, middle, stepped, later⟩ := ran
      have after := ih (each _ _ _ _ _ _ before stepped) later
      rwa [List.append_assoc, List.singleton_append] at after

end Logged

end ApiCompiler
