import ApiCompiler.Loading.Loader
import ApiCompiler.Proofs.Loading.Targets

/-!
What the following of one reference does.
-/

namespace ApiCompiler.Loading

open Openapi

section Run

variable {σ α β : Type}

theorem run_bind (x : ExceptT Problem (StateM σ) α) (f : α → ExceptT Problem (StateM σ) β) (s : σ) :
    (x >>= f).run s =
      match x.run s with
      | (.ok a, after) => (f a).run after
      | (.error problem, after) => (.error problem, after) := by
  have unfolded : (x >>= f).run s = ExceptT.bindCont f (x.run s).1 (x.run s).2 := rfl
  rw [unfolded]
  rcases x.run s with ⟨_ | _, after⟩ <;> rfl

theorem run_get (s : σ) : (get : ExceptT Problem (StateM σ) σ).run s = (.ok s, s) := rfl

theorem run_modify (f : σ → σ) (s : σ) :
    (modify f : ExceptT Problem (StateM σ) Unit).run s = (.ok (), f s) := rfl

theorem run_pure (a : α) (s : σ) :
    (pure a : ExceptT Problem (StateM σ) α).run s = (.ok a, s) := rfl

theorem run_bind_eq_ok {x : ExceptT Problem (StateM σ) α}
    {f : α → ExceptT Problem (StateM σ) β} {before after : σ} {b : β}
    (ran : (x >>= f).run before = (.ok b, after)) :
    ∃ a middle, x.run before = (.ok a, middle) ∧ (f a).run middle = (.ok b, after) := by
  rw [run_bind] at ran
  split at ran
  · exact ⟨_, _, by assumption, ran⟩
  · cases ran

theorem run_map_eq_ok {f : α → β} {x : ExceptT Problem (StateM σ) α} {before after : σ} {b : β}
    (ran : (f <$> x).run before = (.ok b, after)) :
    ∃ a, x.run before = (.ok a, after) ∧ f a = b := by
  rw [map_eq_pure_bind] at ran
  obtain ⟨a, middle, begun, ran⟩ := run_bind_eq_ok ran
  cases ran
  exact ⟨a, begun, rfl⟩

end Run

theorem surroundings_content (work : Work) :
    (surroundings work).content = content work.world work.loader.followsRedirections := rfl

theorem loadRaw_run (location : String) (work : Work) :
    (loadRaw location).run work =
      match work.loader.documents.lookup location with
      | some value => (.ok value, work)
      | none =>
          match content work.world work.loader.followsRedirections location with
          | .error problem => (.error problem, work)
          | .ok value =>
              (.ok value, { work with
                loader := { work.loader with
                  documents := work.loader.documents ++ [(location, value)] } }) := by
  rw [loadRaw, run_bind, run_get]
  dsimp only
  cases work.loader.documents.lookup location with
  | some value => rfl
  | none =>
      dsimp only
      cases content work.world work.loader.followsRedirections location with
      | error problem => rfl
      | ok value => rfl

namespace Survey

variable (around : Surroundings) (root : Value) (home : Target) (location : Option String)
  (reference : String) (survey : Survey)

theorem look_run :
    (look around root location reference).run survey =
      let after := survey.enter around root location reference
      match after.find around location reference with
      | .broken problem => (.error problem, after)
      | lookup => (.ok lookup, after) := by
  rw [look, run_bind, run_modify]
  dsimp only
  rw [run_bind, run_get]
  generalize survey.enter around root location reference = after
  dsimp only
  cases after.find around location reference <;> rfl

theorem lookAll_cons_run (rest : List String) :
    (lookAll around home (reference :: rest)).run survey =
      let after := survey.enter around home.root home.location reference
      match after.find around home.location reference with
      | .broken problem => (.error problem, after)
      | lookup =>
          match (lookAll around home rest).run after with
          | (.ok links, last) => (.ok (lookup.key?.toList ++ links), last)
          | (.error problem, last) => (.error problem, last) := by
  rw [lookAll, run_bind, look_run]
  generalize survey.enter around home.root home.location reference = after
  dsimp only
  cases after.find around home.location reference with
  | found key =>
      dsimp only
      rw [run_bind]
      rcases (lookAll around home rest).run after with ⟨_ | _, _⟩ <;> rfl
  | external => rcases ran : (lookAll around home rest).run after with ⟨_ | _, _⟩ <;> exact ran
  | unloadable => rcases ran : (lookAll around home rest).run after with ⟨_ | _, _⟩ <;> exact ran
  | dangling message =>
      rcases ran : (lookAll around home rest).run after with ⟨_ | _, _⟩ <;> exact ran
  | broken problem => rfl

theorem exploreTarget_run (key : String) (target : Target) :
    (exploreTarget around key target).run survey =
      match (lookAll around target (referencesOf target.value)).run survey with
      | (.ok links, after) => (.ok links, { after with edges := after.edges ++ [(key, links)] })
      | (.error problem, after) => (.error problem, after) := by
  rw [exploreTarget, run_bind]
  rcases (lookAll around target (referencesOf target.value)).run survey with ⟨_ | _, _⟩ <;> rfl

theorem explore_cons_run (limit : Nat) (key : String) (pending : List String) :
    (explore around (limit + 1) (key :: pending)).run survey =
      match survey.edges.lookup key, survey.target? key with
      | none, some target =>
          match (exploreTarget around key target).run survey with
          | (.ok links, after) => (explore around limit (links ++ pending)).run after
          | (.error problem, after) => (.error problem, after)
      | _, _ => (explore around limit pending).run survey := by
  rw [explore, run_bind, run_get]
  dsimp only
  cases survey.edges.lookup key with
  | some links => rfl
  | none =>
      cases survey.target? key with
      | none => rfl
      | some target =>
          dsimp only
          rw [run_bind]
          rcases (exploreTarget around key target).run survey with ⟨_ | _, _⟩ <;> rfl

end Survey

namespace Inlining

theorem truncate_run (key reference : String) (target : Target) (shelf : Shelf) :
    (truncate key reference target).run shelf =
      match shelf.truncated.lookup key with
      | some expansion => (.ok expansion, shelf)
      | none =>
          (.ok (.ofValue (withoutNested target.value)),
            { shelf with
              truncated := (key, .ofValue (withoutNested target.value)) :: shelf.truncated
              log := shelf.log.push ⟨.warning, .loading,
                "Circular reference detected: " ++ reference⟩ }) := by
  rw [truncate, run_bind, run_get]
  dsimp only
  cases shelf.truncated.lookup key with
  | some expansion => rfl
  | none => rfl

theorem expandTarget_run (survey : Survey) (follow : Target → Follow Inlining) (key : String)
    (target : Target) (shelf : Shelf) :
    (expandTarget survey follow key target).run shelf =
      match shelf.expanded.lookup key with
      | some expansion => (.ok expansion, shelf)
      | none =>
          match (walk (follow target) (some ⟨survey.cycleOf key, [key], true⟩) target.value).run
            shelf with
          | (.ok expansion, after) =>
              (.ok expansion, { after with expanded := (key, expansion) :: after.expanded })
          | (.error problem, after) => (.error problem, after) := by
  rw [expandTarget, run_bind, run_get]
  dsimp only
  cases shelf.expanded.lookup key with
  | some expansion => rfl
  | none =>
      dsimp only
      rw [run_bind]
      generalize (walk (follow target) (some ⟨survey.cycleOf key, [key], true⟩) target.value).run
        shelf = walked
      rcases walked with ⟨_ | _, after⟩ <;> rfl

section Follow

variable {around : Surroundings} {survey : Survey} {depth : Nat} {home : Target} {scope : Scope}
  {node : Members Value} {reference : String} {siblings : Inlining (Members Expansion)}

theorem followIn_of_found {key : String} {target : Target}
    (found : survey.find around home.location reference = .found key)
    (filed : survey.target? key = some target) :
    followIn around survey (depth + 1) home (some scope) node reference siblings =
      (if !scope.cycle.contains key then
        expandTarget survey (followIn around survey depth) key target
      else if scope.composing && !scope.inlined.contains key then
        walk (followIn around survey depth target)
          (some { scope with inlined := key :: scope.inlined }) target.value
      else truncate key reference target) >>= overlay node siblings := by
  rw [followIn, found]
  dsimp only
  rw [filed]
  dsimp only [Option.getD_some]
  split
  · rfl
  · split <;> rfl

theorem followIn_of_unfiled {key : String}
    (found : survey.find around home.location reference = .found key)
    (absent : survey.target? key = none) :
    followIn around survey (depth + 1) home (some scope) node reference siblings =
      pure (.ofValue (.object node)) := by
  rw [followIn, found]
  dsimp only
  rw [absent]

theorem followIn_of_lost
    (lost : ∀ key, survey.find around home.location reference ≠ .found key) :
    followIn around survey (depth + 1) home (some scope) node reference siblings =
      keep node reference (survey.find around home.location reference) := by
  rw [followIn]
  split
  · rename_i key found
    exact absurd found (lost key)
  · rfl

end Follow

end Inlining

namespace Expanding

theorem ofInlining_run {α : Type} (computation : Inlining α) (bench : Bench) :
    (ofInlining computation).run bench = ((computation.run bench.shelf).1,
      { bench with shelf := (computation.run bench.shelf).2 }) := rfl

theorem ofSurveying_run {α : Type} (computation : Surveying α) (bench : Bench) :
    (ofSurveying computation).run bench = ((computation.run bench.survey).1,
      { bench with survey := (computation.run bench.survey).2 }) := rfl

theorem followRoot_run (around : Surroundings) (limit : Nat) (root : Value)
    (location : Option String) (scope : Option Scope) (node : Members Value) (reference : String)
    (siblings : Expanding (Members Expansion)) (bench : Bench) :
    (followRoot around limit root location scope node reference siblings).run bench =
      let survey := bench.survey.enter around root location reference
      match survey.find around location reference with
      | .found key =>
          match (Survey.explore around limit [key]).run survey with
          | (.error problem, survey) => (.error problem, { bench with survey })
          | (.ok _, survey) =>
              match survey.target? key with
              | none => (.ok (.ofValue (.object node)), { bench with survey })
              | some target =>
                  (ofInlining (Inlining.expand around survey key target) >>=
                    overlay node siblings).run { bench with survey }
      | lookup => (ofInlining (Inlining.keep node reference lookup)).run { bench with survey } := by
  rw [followRoot, run_bind, ofSurveying_run, Survey.look_run]
  generalize bench.survey.enter around root location reference = survey
  dsimp only
  cases survey.find around location reference with
  | found key =>
      dsimp only
      rw [run_bind, ofSurveying_run]
      dsimp only
      rcases (Survey.explore around limit [key]).run survey with ⟨_ | _, survey⟩
      · rfl
      · dsimp only
        rw [run_bind, run_get]
        dsimp only
        cases survey.target? key <;> rfl
  | external => rfl
  | unloadable => rfl
  | dangling message => rfl
  | broken problem => rfl

end Expanding

theorem dereferenceWithin_fst (limit : Nat) (document : Value) (location : Option String)
    (work : Work) :
    ((dereferenceWithin limit document location).run work).1 =
      ((Expanding.document (surroundings work) limit document location).run
        { survey := { documents := work.loader.documents } }).1 := rfl

end ApiCompiler.Loading
