import ApiCompiler.Proofs.Loading.Termination

/-!
What is on the shelf at any time while a document is dereferenced.
-/

namespace ApiCompiler.Loading

open Openapi Relation

namespace Job

variable {job : Job} {survey : Survey} {home target : Target} {value : Value}

/-- A target whose references were all explored. -/
def Known (survey : Survey) (target : Target) : Prop :=
  ∃ key, survey.target? key = some target ∧ Explored survey key

theorem Known.find (known : Known survey home) (sound : job.Sound survey) (agree : job.KeysAgree)
    (closed : Closed survey) {reference : String} (inside : reference ∈ referencesOf home.value) :
    (job.link? home reference = none ∧
        (∀ key, survey.find job.around home.location reference ≠ .found key) ∧
        ∀ problem, survey.find job.around home.location reference ≠ .broken problem) ∨
      ∃ key target, job.link? home reference = some key ∧
        survey.find job.around home.location reference = .found key ∧
        survey.target? key = some target ∧ Explored survey key := by
  obtain ⟨place, filed, explored⟩ := known
  have entered := (explored.successors sound filed).2 reference inside
  have found := sound.find_iff agree (sound.met filed) inside entered
  cases link : job.link? home reference with
  | none =>
      refine .inl ⟨rfl, fun key leads => ?_, entered.find_ne_broken sound⟩
      rw [(found key).mp leads] at link
      cases link
  | some key =>
      obtain ⟨target, there⟩ := Option.isSome_iff_exists.mp (entered.target key link)
      exact .inr ⟨key, target, rfl, (found key).mpr link, there,
        explored.links_explored sound closed filed key (mem_linksOf.mpr ⟨reference, inside, link⟩)⟩

/-- The states in which the parts of a document may be met while it is dereferenced. -/
inductive Reached (job : Job) : Bench → Prop
  | start : Reached job { survey := { documents := job.known } }
  | document {bench after : Bench} {limit : Nat} {value : Value} {expansion : Expansion}
      (before : Reached job bench)
      (inside : ∀ reference ∈ referencesOf value, reference ∈ referencesOf job.document)
      (walked : (walk (Expanding.followRoot job.around limit job.document job.location) none
        value).run bench = (.ok expansion, after)) : Reached job after
  | explored {bench : Bench} {survey : Survey} {limit : Nat} {reference key : String}
      (before : Reached job bench) (inside : reference ∈ referencesOf job.document)
      (found : (bench.survey.enter job.around job.document job.location reference).find job.around
        job.location reference = .found key)
      (explored : (Survey.explore job.around limit [key]).run
        (bench.survey.enter job.around job.document job.location reference) = (.ok (), survey)) :
      Reached job { bench with survey }
  | target {bench : Bench} {shelf : Shelf} {depth : Nat} {home : Target} {value : Value}
      {scope : Scope} {expansion : Expansion} (before : Reached job bench)
      (known : Known bench.survey home)
      (inside : ∀ reference ∈ referencesOf value, reference ∈ referencesOf home.value)
      (walked : (walk (Inlining.followIn job.around bench.survey depth home) (some scope)
        value).run bench.shelf = (.ok expansion, shelf)) : Reached job { bench with shelf }

/-- So it is once the target of a reference is explored, unless that fails. -/
theorem Ready.explores (plain : job.Plain) {bench : Bench} (ready : job.Ready bench)
    (reached : job.Reached bench) {reference key : String}
    (inside : reference ∈ referencesOf job.document)
    (found : (bench.survey.enter job.around job.document job.location reference).find job.around
      job.location reference = .found key) (limit : Nat) :
    (∃ survey target, (Survey.explore job.around limit [key]).run
        (bench.survey.enter job.around job.document job.location reference) = (.ok (), survey) ∧
      job.Reached { bench with survey } ∧ survey.target? key = some target ∧ Explored survey key) ∨
    ∃ problem survey, (Survey.explore job.around limit [key]).run
        (bench.survey.enter job.around job.document job.location reference) =
          (.error problem, survey) ∧
      (job.Exceeded limit problem ∨ job.BrokenAt job.start reference problem) := by
  have met : job.Met job.start := .refl
  obtain ⟨sound, -, same, entered⟩ := ready.sound.enter met inside
  have entered := entered (sound.unbroken_of_found found)
  have link := (sound.find_iff plain.keysAgree met inside entered key).mp found
  rcases ran : (Survey.explore job.around limit [key]).run
    (bench.survey.enter job.around job.document job.location reference) with ⟨problem | _, survey⟩
  · have stops : job.Stops limit reference problem :=
      .exploring link sound (entered.target key link) ran
    exact .inr ⟨problem, survey, rfl, stops.brokenAt plain⟩
  · obtain ⟨-, target, filed, explored⟩ := ready.explored plain.keysAgree inside found ran
    exact .inl ⟨survey, target, rfl, .explored reached inside found ran, filed, explored⟩

/-! What holds of everything on the shelf. -/

/-- If there is a result, what held of the shelf still holds. -/
def Preserves (holds : Shelf → Prop) (α : Type) (x : Inlining α) : Prop :=
  ∀ shelf, holds shelf → ∀ a after, x.run shelf = (.ok a, after) → holds after

/-- So it is whichever part of a known target is met, so many references deep. -/
def Steady (job : Job) (survey : Survey) (holds : Shelf → Prop) (depth : Nat) : Prop :=
  ∀ home value scope, Known survey home →
    (∀ reference ∈ referencesOf value, reference ∈ referencesOf home.value) →
      Preserves holds _ (walk (Inlining.followIn job.around survey depth home) (some scope) value)

/--
It still holds when the expansion of a known target is put on the shelf, or a target cut short, or when
something is told.
-/
structure Stable (job : Job) (holds : Shelf → Prop) : Prop where
  expanded : ∀ survey, job.Sound survey → Closed survey → ∀ key target,
    survey.target? key = some target → Explored survey key → ∀ depth,
      (∀ less ≤ depth, job.Steady survey holds less) →
        ∀ shelf expansion after, holds shelf → holds after →
          (walk (Inlining.followIn job.around survey depth target)
            (some ⟨survey.cycleOf key, [key], true⟩) target.value).run shelf =
              (.ok expansion, after) →
          holds { after with expanded := (key, expansion) :: after.expanded }
  truncated : ∀ survey, job.Sound survey → ∀ key target, survey.target? key = some target →
    ∀ shelf, holds shelf → holds { shelf with
      truncated := (key, .ofValue (Inlining.withoutNested target.value)) :: shelf.truncated }
  told : ∀ shelf log, holds shelf → holds { shelf with log }

section Preserves

variable {holds : Shelf → Prop}

theorem Preserves.keeps : Keeps (n := Id) fun α x _ => Preserves holds α x where
  pure a shelf before b after ran := by
    cases ran
    exact before
  bind first rest shelf before b after ran := by
    rw [run_bind] at ran
    split at ran
    · rename_i a middle begun
      exact rest a middle (first shelf before a middle begun) b after ran
    · cases ran

theorem Preserves.throw (problem : Problem) : Preserves holds Expansion (throw problem) := by
  intro shelf before a after ran
  cases ran

theorem Preserves.overlay {siblings : Inlining (Members Expansion)}
    (preserves : Preserves holds _ siblings) (node : Members Value) (expansion : Expansion) :
    Preserves holds _ (overlay node siblings expansion) :=
  Preserves.keeps.overlay (y := ([] : Members Expansion)) preserves expansion

theorem Preserves.keep (stable : job.Stable holds) (node : Members Value) (reference : String)
    (lookup : Lookup) : Preserves holds _ (Inlining.keep node reference lookup) := by
  intro shelf before a after ran
  cases lookup with
  | found key => cases ran; exact before
  | external => cases ran; exact before
  | unloadable => cases ran; exact stable.told shelf _ before
  | dangling message => cases ran; exact stable.told shelf _ before
  | broken problem => cases ran

theorem Preserves.truncate (stable : job.Stable holds) (sound : job.Sound survey) {key : String}
    (filed : survey.target? key = some target) (reference : String) :
    Preserves holds _ (Inlining.truncate key reference target) := by
  intro shelf before a after ran
  rw [Inlining.truncate_run] at ran
  split at ran
  · cases ran
    exact before
  · cases ran
    exact stable.told _ _ (stable.truncated survey sound key target filed shelf before)

theorem Preserves.expandTarget (stable : job.Stable holds) (sound : job.Sound survey)
    (closed : Closed survey) {key : String} (filed : survey.target? key = some target)
    (explored : Explored survey key) {depth : Nat}
    (steady : ∀ less ≤ depth, job.Steady survey holds less) :
    Preserves holds _ (Inlining.expandTarget survey (Inlining.followIn job.around survey depth) key
      target) := by
  intro shelf before a after ran
  rw [Inlining.expandTarget_run] at ran
  split at ran
  · cases ran
    exact before
  · split at ran
    · rename_i expansion middle begun
      cases ran
      have walked := steady depth (Nat.le_refl _) target target.value
        ⟨survey.cycleOf key, [key], true⟩ ⟨key, filed, explored⟩ fun _ within => within
      exact stable.expanded survey sound closed key target filed explored depth steady shelf a middle
        before (walked shelf before a middle begun) begun
    · cases ran

theorem Stable.steady (stable : job.Stable holds) (sound : job.Sound survey)
    (agree : job.KeysAgree) (closed : Closed survey) (depth : Nat) :
    job.Steady survey holds depth := by
  induction depth using Nat.strongRecOn with
  | _ depth ih =>
      intro home value scope known inside
      let inScope (other : Option Scope) := ∃ here, other = some here
      have here : inScope (some scope) := ⟨scope, rfl⟩
      refine walk_holds Preserves.keeps ?_ ?_ here
      · rintro _ name ⟨here, rfl⟩
        exact ⟨here.within name, rfl⟩
      · rintro reference member _ node siblings ⟨here, rfl⟩ walked
        cases depth with
        | zero => exact .throw _
        | succ depth =>
            rcases known.find sound agree closed (inside reference member) with
              ⟨-, lost, -⟩ | ⟨key, target, -, found, filed, explored⟩
            · rw [Inlining.followIn_of_lost lost]
              exact .keep stable _ _ _
            · rw [Inlining.followIn_of_found found filed]
              refine Preserves.keeps.bind (y := (.scalar .null : Expansion)) (g := fun _ =>
                (.scalar .null : Expansion)) ?_ fun expansion => walked.overlay node expansion
              split
              · exact .expandTarget stable sound closed filed explored
                  fun less within => ih less (Nat.lt_succ_of_le within)
              · split
                · exact ih depth (Nat.lt_succ_self _) target target.value _ ⟨key, filed, explored⟩
                    fun _ within => within
                · exact .truncate stable sound filed _

def Remains (job : Job) (holds : Shelf → Prop) (α : Type) (x : Expanding α) : Prop :=
  ∀ bench, job.Ready bench → holds bench.shelf → ∀ a after, x.run bench = (.ok a, after) →
    job.Ready after ∧ holds after.shelf

theorem Remains.keeps (job : Job) : Keeps (n := Id) fun α x _ => job.Remains holds α x where
  pure a bench ready before b after ran := by
    cases ran
    exact ⟨ready, before⟩
  bind first rest bench ready before b after ran := by
    rw [run_bind] at ran
    split at ran
    · rename_i a middle begun
      obtain ⟨ready', still⟩ := first bench ready before a middle begun
      exact rest a middle ready' still b after ran
    · cases ran

theorem Preserves.remains {α : Type} {x : Inlining α} (preserves : Preserves holds α x) :
    job.Remains holds α (Expanding.ofInlining x) := by
  intro bench ready before a after ran
  rw [Expanding.ofInlining_run] at ran
  obtain ⟨result, rfl⟩ := Prod.mk.inj ran
  exact ⟨⟨ready.sound, ready.closed⟩, preserves bench.shelf before a _ (Prod.ext result rfl)⟩

theorem Stable.remains (stable : job.Stable holds) (agree : job.KeysAgree) {limit : Nat}
    (inside : ∀ reference ∈ referencesOf value, reference ∈ referencesOf job.document) :
    job.Remains holds _
      (walk (Expanding.followRoot job.around limit job.document job.location) none value) := by
  refine walk_holds (Remains.keeps job) (fun _ _ (_ : True) => trivial) ?_ trivial
  intro reference member scope node siblings _ walked bench ready before a after ran
  rcases followRoot_cases agree ready (inside reference member) limit scope node siblings with
    ⟨-, -, survey, lookup, -, ready', same⟩ | ⟨problem, survey, -, same⟩ |
      ⟨key, survey, target, -, filed, explored, ready', same⟩
  · rw [same] at ran
    exact (Preserves.keep stable node reference lookup).remains _ ready' before a after ran
  · rw [same] at ran
    cases ran
  · rw [same] at ran
    have expanded : Preserves holds _ (Inlining.expand job.around survey key target) :=
      .expandTarget stable ready'.sound ready'.closed filed explored
        fun less _ => stable.steady ready'.sound agree ready'.closed less
    refine (Remains.keeps job).bind (y := (.scalar .null : Expansion)) (g := fun _ =>
      (.scalar .null : Expansion)) expanded.remains (fun expansion => ?_) _ ready' before a after ran
    exact (Remains.keeps job).overlay (y := ([] : Members Expansion)) walked expansion

/-- What holds of an empty shelf and still holds with each expansion put on it holds at any time. -/
theorem Reached.kept (stable : job.Stable holds) (agree : job.KeysAgree) (fresh : holds {})
    {bench : Bench} (reached : job.Reached bench) : job.Ready bench ∧ holds bench.shelf := by
  induction reached with
  | start => exact ⟨.initial job, fresh⟩
  | document _ inside walked ih => exact stable.remains agree inside _ ih.1 ih.2 _ _ walked
  | explored _ inside found explored ih =>
      exact ⟨(ih.1.explored agree inside found explored).1, ih.2⟩
  | target _ known inside walked ih =>
      exact ⟨⟨ih.1.sound, ih.1.closed⟩,
        stable.steady ih.1.sound agree ih.1.closed _ _ _ _ known inside _ ih.2 _ _ walked⟩

end Preserves

end Job

end ApiCompiler.Loading
