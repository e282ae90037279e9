import ApiCompiler.Proofs.Loading.Twins

/-!
A loader that was used before does what a fresh one does: what it remembers of documents saves it from
reading them again, and makes no other difference.
-/

namespace ApiCompiler.Loading

open Openapi

inductive Call
  | tree (location : String)
  | expansion (document : Value) (location : Option String)
  | description (source : String)

inductive Answer
  | tree (value : Value)
  | expansion (expansion : Expansion)
  | description (document : Document)

def Call.perform : Call → Loading Answer
  | .tree location => .tree <$> loadRaw location
  | .expansion document location => .expansion <$> dereference document location
  | .description source => .description <$> load source

/-- A loader at work after some calls, whether they failed or not. -/
def Work.after (work : Work) (calls : List Call) : Work :=
  calls.foldl (fun work call => (call.perform.run work).2) work

/-- The same loader in the same world, but with other memories and another log. -/
def Work.recall (work : Work) (documents : List (String × Value)) (log : Log) : Work :=
  { loader := { work.loader with documents }, world := { work.world with log } }

/-! Computations that do not depend on what is remembered. -/

variable {work : Work}

/-- Whatever is remembered, as long as it is so, there are one result and one addition to the log. -/
def Forgets (work : Work) {α : Type} (x : Loading α) : Prop :=
  ∃ result entries, ∀ documents log, Truthful (surroundings work) documents →
    ∃ later, Truthful (surroundings work) later ∧
      x.run (work.recall documents log) = (result, work.recall later (log ++ entries))

theorem Forgets.pure {α : Type} (a : α) : Forgets work (Pure.pure a : Loading α) :=
  ⟨.ok a, #[], fun documents log truthful => ⟨documents, truthful, by rw [Array.append_empty]; rfl⟩⟩

theorem Forgets.throw {α : Type} (problem : Problem) :
    Forgets work (throw problem : Loading α) :=
  ⟨.error problem, #[], fun documents log truthful =>
    ⟨documents, truthful, by rw [Array.append_empty]; rfl⟩⟩

theorem Forgets.bind {α β : Type} {x : Loading α} {f : α → Loading β} (begun : Forgets work x)
    (rest : ∀ a, Forgets work (f a)) : Forgets work (x >>= f) := by
  obtain ⟨result, entries, runs⟩ := begun
  cases result with
  | error problem =>
      refine ⟨.error problem, entries, fun documents log truthful => ?_⟩
      obtain ⟨later, truthful', ran⟩ := runs documents log truthful
      exact ⟨later, truthful', by rw [run_bind, ran]⟩
  | ok a =>
      obtain ⟨result, entries', runs'⟩ := rest a
      refine ⟨result, entries ++ entries', fun documents log truthful => ?_⟩
      obtain ⟨middle, truthful', ran⟩ := runs documents log truthful
      obtain ⟨later, truthful'', ran'⟩ := runs' middle (log ++ entries) truthful'
      refine ⟨later, truthful'', ?_⟩
      rw [run_bind, ran, ← Array.append_assoc]
      exact ran'

theorem Forgets.map {α β : Type} {x : Loading α} (begun : Forgets work x) (f : α → β) :
    Forgets work (f <$> x) := by
  rw [map_eq_pure_bind]
  exact begun.bind fun a => .pure (f a)

theorem Forgets.loadRaw (work : Work) (location : String) :
    Forgets work (Loading.loadRaw location) := by
  have around (documents : List (String × Value)) (log : Log) :
      surroundings (work.recall documents log) = surroundings work := rfl
  cases content : (surroundings work).content location with
  | error problem =>
      refine ⟨.error problem, #[], fun documents log truthful => ⟨documents, truthful, ?_⟩⟩
      rw [loadRaw_run, ← surroundings_content, around, content]
      cases listed : (work.recall documents log).loader.documents.lookup location with
      | some value =>
          rw [truthful location value listed] at content
          cases content
      | none =>
          rw [Array.append_empty]
  | ok value =>
      refine ⟨.ok value, #[], fun documents log truthful => ?_⟩
      rw [loadRaw_run, ← surroundings_content, around, content, Array.append_empty]
      cases listed : (work.recall documents log).loader.documents.lookup location with
      | some old =>
          rw [truthful location old listed] at content
          cases content
          exact ⟨documents, truthful, rfl⟩
      | none => exact ⟨documents ++ [(location, value)], truthful.append content, rfl⟩

theorem Forgets.dereferenceWithin (work : Work) (limit : Nat) (document : Value)
    (location : Option String) :
    Forgets work (Loading.dereferenceWithin limit document location) := by
  have started (documents : List (String × Value)) (truthful : Truthful (surroundings work) documents) :
      Level (surroundings work) { survey := {} } { survey := { documents } } :=
    ⟨⟨rfl, rfl, .initial (.nil _), .initial truthful⟩, nofun, rfl⟩
  have blind : Blind (surroundings work) _
      (Expanding.document (surroundings work) limit document location) :=
    Blind.document limit document location
  obtain ⟨result, after, -, ran, -⟩ := blind _ _ (started [] (.nil _))
  refine ⟨result, after.shelf.log, fun documents log truthful => ?_⟩
  obtain ⟨result', first, second, ran', ran'', same, -, truthful', -⟩ :=
    blind _ _ (started documents truthful)
  rw [ran] at ran'
  obtain ⟨rfl, rfl⟩ := Prod.mk.inj ran'
  refine ⟨second.survey.documents, truthful', ?_⟩
  have unfolded : (Loading.dereferenceWithin limit document location).run (work.recall documents log) =
      let ran := (Expanding.document (surroundings work) limit document location).run
        { survey := { documents } }
      (ran.1, work.recall ran.2.survey.documents (log ++ ran.2.shelf.log)) := rfl
  rw [unfolded, ran'']
  dsimp only
  rw [same]

theorem Forgets.of_get {α : Type} {f : Work → Loading α}
    (same : ∀ documents log, f (work.recall documents log) = f work)
    (rest : Forgets work (f work)) : Forgets work (get >>= f) := by
  obtain ⟨result, entries, runs⟩ := rest
  refine ⟨result, entries, fun documents log truthful => ?_⟩
  rw [run_bind, run_get]
  dsimp only
  rw [same]
  exact runs documents log truthful

theorem Forgets.loadAt (work : Work) (source location : String) :
    Forgets work (Loading.loadAt source location) := by
  refine .bind (.loadRaw work _) fun document => ?_
  split
  · exact .throw _
  · refine .bind (.dereferenceWithin work _ document _) fun expansion => ?_
    split
    · exact .pure _
    · exact .throw _

theorem Forgets.load (work : Work) (source : String) : Forgets work (Loading.load source) := by
  rw [Loading.load]
  refine .of_get (fun _ _ => rfl) ?_
  split
  · exact .throw _
  · exact .loadAt work source _

/-! Calls one after the other. -/

theorem Forgets.perform (work : Work) (call : Call) : Forgets work call.perform := by
  cases call with
  | tree location => exact (Forgets.loadRaw work location).map _
  | expansion document location => exact (Forgets.dereferenceWithin work _ document location).map _
  | description source => exact (Forgets.load work source).map _

/-- Calls change nothing of a loader and its world but what it remembers and the log. -/
theorem Work.after_recall (work : Work) (calls : List Call) {documents : List (String × Value)}
    (truthful : Truthful (surroundings work) documents) (log : Log) :
    ∃ later log', Truthful (surroundings work) later ∧
      (work.recall documents log).after calls = work.recall later log' := by
  induction calls generalizing documents log with
  | nil => exact ⟨documents, log, truthful, rfl⟩
  | cons call calls ih =>
      obtain ⟨result, entries, runs⟩ := Forgets.perform work call
      obtain ⟨middle, truthful', ran⟩ := runs documents log truthful
      obtain ⟨later, log', truthful'', went⟩ := ih truthful' (log ++ entries)
      refine ⟨later, log', truthful'', ?_⟩
      rw [Work.after, List.foldl_cons, ran]
      exact went

/-- A call has the same answer or the same problem, and is told about alike, after any other calls. -/
theorem Work.perform_after (loader : Loader) (world : World) (calls : List Call) (call : Call) :
    let fresh : Work := ⟨{ loader with documents := [] }, world⟩
    (call.perform.run (fresh.after calls)).1 = (call.perform.run fresh).1 ∧
      ∃ entries : Log,
        (call.perform.run fresh).2.world.log = world.log ++ entries ∧
        (call.perform.run (fresh.after calls)).2.world.log =
          (fresh.after calls).world.log ++ entries := by
  intro fresh
  obtain ⟨later, log, truthful, used⟩ := fresh.after_recall calls (.nil _) world.log
  obtain ⟨result, entries, runs⟩ := Forgets.perform fresh call
  obtain ⟨_, -, ran⟩ := runs [] world.log (.nil _)
  obtain ⟨_, -, ran'⟩ := runs later log truthful
  have same : fresh.recall [] world.log = fresh := rfl
  rw [same] at ran used
  rw [used, ran, ran']
  exact ⟨rfl, entries, rfl, rfl⟩

end ApiCompiler.Loading
