import ApiCompiler.Proofs.Loading.Sharing

/-!
What is told of circles. While a document is dereferenced, a target on a circle is told of at most
once, with the reference that is cut short there first; of other targets nothing is told.
-/

namespace ApiCompiler.Loading

open Openapi Relation

/-! Entries of the log. -/

def tellsOfCircle (entry : LogEntry) : Bool :=
  "Circular reference detected: ".toList.isPrefixOf entry.message.toList

def circleEntries (log : Log) : List LogEntry :=
  log.toList.filter tellsOfCircle

theorem circleEntries_push (log : Log) {entry : LogEntry} (tells : tellsOfCircle entry = true) :
    circleEntries (log.push entry) = circleEntries log ++ [entry] := by
  rw [circleEntries, Array.toList_push, List.filter_append, List.filter_cons_of_pos tells,
    List.filter_nil, circleEntries]

theorem circleEntries_push_of_not (log : Log) {entry : LogEntry}
    (other : tellsOfCircle entry = false) : circleEntries (log.push entry) = circleEntries log := by
  rw [circleEntries, Array.toList_push, List.filter_append,
    List.filter_cons_of_neg (Bool.not_eq_true _ ▸ other), List.filter_nil, List.append_nil,
    circleEntries]

theorem tellsOfCircle_circular (reference : String) :
    tellsOfCircle
      ⟨.warning, .loading, "Circular reference detected: " ++ reference⟩ = true := by
  rw [tellsOfCircle, String.toList_append, List.isPrefixOf_iff_prefix]
  exact List.prefix_append ..

/-- All else that is told while references are followed is of what failed. -/
theorem tellsOfCircle_of_head {message : String} (start : message.toList.head? = some 'F') :
    tellsOfCircle ⟨.warning, .loading, message⟩ = false := by
  refine Bool.eq_false_iff.mpr fun tells => ?_
  rw [tellsOfCircle, List.isPrefixOf_iff_prefix] at tells
  obtain ⟨rest, same⟩ := tells
  refine Job.ne_circular_of_head start (String.ofList rest) (String.toList_inj.mp ?_)
  rw [String.toList_append]
  exact same.symm.trans (congrArg _ String.toList_ofList.symm)

namespace Job

/-- The target under a key leads back to itself. -/
def Circular (job : Job) (key : String) : Prop :=
  ∃ target, job.Filed key target ∧ TransGen job.Refers target target

/-- An entry tells of a reference to what is filed under a key. -/
def Tells (job : Job) (entry : LogEntry) (key : String) : Prop :=
  ∃ home, job.Met home ∧ ∃ reference ∈ referencesOf home.value,
    job.link? home reference = some key ∧
      entry = ⟨.warning, .loading, "Circular reference detected: " ++ reference⟩

/-- Each target that was cut short lies on a circle, and was told of when that was done. -/
structure Reported (job : Job) (shelf : Shelf) : Prop where
  distinct : (shelf.truncated.map Prod.fst).Nodup
  circular : ∀ key ∈ shelf.truncated.map Prod.fst, job.Circular key
  told : List.Forall₂ job.Tells (circleEntries shelf.log) (shelf.truncated.map Prod.fst).reverse

/-- Whatever comes of a computation, targets cut short and entries still belong together. -/
def Upholds (job : Job) (α : Type) (x : Inlining α) : Prop :=
  ∀ shelf, job.Reported shelf → job.Reported (x.run shelf).2

variable {job : Job} {survey : Survey} {home target : Target} {value : Value} {key : String}

namespace Reported

variable {shelf : Shelf}

theorem fresh (job : Job) : job.Reported {} :=
  ⟨List.nodup_nil, nofun, .nil⟩

theorem warn (reported : job.Reported shelf) {message : String}
    (start : message.toList.head? = some 'F') :
    job.Reported { shelf with log := shelf.log.push ⟨.warning, .loading, message⟩ } where
  distinct := reported.distinct
  circular := reported.circular
  told := by
    rw [circleEntries_push_of_not _ (tellsOfCircle_of_head start)]
    exact reported.told

theorem truncate (reported : job.Reported shelf) (absent : shelf.truncated.lookup key = none)
    (circular : job.Circular key) {reference : String} (met : job.Met home)
    (inside : reference ∈ referencesOf home.value) (link : job.link? home reference = some key)
    (expansion : Expansion) :
    job.Reported { shelf with
      truncated := (key, expansion) :: shelf.truncated
      log := shelf.log.push
        ⟨.warning, .loading, "Circular reference detected: " ++ reference⟩ } where
  distinct := by
    refine List.nodup_cons.mpr ⟨fun before => ?_, reported.distinct⟩
    obtain ⟨pair, member, same⟩ := List.mem_map.mp before
    have present : (shelf.truncated.lookup key).isSome :=
      List.lookup_isSome_iff.mpr ⟨pair, member, beq_iff_eq.mpr same.symm⟩
    rw [absent] at present
    cases present
  circular := List.forall_mem_cons.mpr ⟨circular, reported.circular⟩
  told := by
    rw [circleEntries_push _ (tellsOfCircle_circular reference), List.map_cons,
      List.reverse_cons]
    exact List.rel_append reported.told (.cons ⟨home, met, reference, inside, link, rfl⟩ .nil)

end Reported

/-! Following references within targets. -/

namespace Upholds

theorem keeps (job : Job) : Keeps (n := Id) fun α x _ => job.Upholds α x where
  pure _ _ reported := reported
  bind first rest shelf reported := by
    have middle := first shelf reported
    rw [run_bind]
    split
    · rename_i a after begun
      rw [begun] at middle
      exact rest a after middle
    · rename_i problem after begun
      rw [begun] at middle
      exact middle

theorem overlay {siblings : Inlining (Members Expansion)} (upholds : job.Upholds _ siblings)
    (node : Members Value) (expansion : Expansion) :
    job.Upholds _ (overlay node siblings expansion) :=
  (Upholds.keeps job).overlay (y := ([] : Members Expansion)) upholds expansion

theorem keep (job : Job) (node : Members Value) (reference : String) (lookup : Lookup) :
    job.Upholds _ (Inlining.keep node reference lookup) := by
  intro shelf reported
  cases lookup with
  | found key => exact reported
  | external => exact reported
  | unloadable => exact reported.warn (by simp)
  | dangling message => exact reported.warn (by simp)
  | broken problem => exact reported

theorem truncate (circular : job.Circular key) {reference : String} (met : job.Met home)
    (inside : reference ∈ referencesOf home.value) (link : job.link? home reference = some key)
    (target : Target) : job.Upholds _ (Inlining.truncate key reference target) := by
  intro shelf reported
  rw [Inlining.truncate_run]
  split
  · exact reported
  · rename_i absent
    exact reported.truncate absent circular met inside link _

theorem expandTarget {follow : Target → Follow Inlining}
    (walked : job.Upholds _
      (walk (follow target) (some ⟨survey.cycleOf key, [key], true⟩) target.value)) :
    job.Upholds _ (Inlining.expandTarget survey follow key target) := by
  intro shelf reported
  have after := walked shelf reported
  rw [Inlining.expandTarget_run]
  split
  · exact reported
  · split
    · rename_i expansion middle begun
      rw [begun] at after
      exact ⟨after.distinct, after.circular, after.told⟩
    · rename_i problem middle begun
      rw [begun] at after
      exact after

end Upholds

theorem Sound.circular (sound : job.Sound survey) (plain : job.Plain)
    (filed : survey.target? key = some target) (leads : TransGen (Leads survey) key key) :
    job.Circular key :=
  ⟨target, sound.targets key target filed, sound.refers_of_transGen plain leads filed filed⟩

/-- A reference within a target is cut short only if it leads to what lies on a circle. -/
theorem followIn_upholds (sound : job.Sound survey) (plain : job.Plain) (closed : Closed survey)
    {depth : Nat} {scope : Scope} (known : Known survey home)
    (inside : ∀ reference ∈ referencesOf value, reference ∈ referencesOf home.value)
    (looped : Looped survey scope) :
    job.Upholds _
      (walk (Inlining.followIn job.around survey depth home) (some scope) value) := by
  induction depth generalizing home value scope with
  | zero =>
      refine walk_holds (Upholds.keeps job) (fun _ _ (_ : True) => trivial) ?_ trivial
      exact fun reference _ _ _ _ _ _ shelf reported => reported
  | succ depth ih =>
      let inScope (other : Option Scope) := ∃ here, other = some here ∧ Looped survey here
      have here : inScope (some scope) := ⟨scope, rfl, looped⟩
      refine walk_holds (Upholds.keeps job) ?_ ?_ here
      · rintro _ name ⟨here, rfl, looped⟩
        exact ⟨here.within name, rfl, looped⟩
      · rintro reference member _ node siblings ⟨here, rfl, looped⟩ walked
        rcases known.find sound plain.keysAgree closed (inside reference member) with
          ⟨-, lost, -⟩ | ⟨key, target, link, found, filed, explored⟩
        · rw [Inlining.followIn_of_lost lost]
          exact .keep job _ _ _
        · have further (scope : Scope) (looped : Looped survey scope) :
              job.Upholds _ (walk (Inlining.followIn job.around survey depth target) (some scope)
                target.value) :=
            ih ⟨key, filed, explored⟩ (fun _ within => within) looped
          rw [Inlining.followIn_of_found found filed]
          refine (Upholds.keeps job).bind (y := (.scalar .null : Expansion)) (g := fun _ =>
            (.scalar .null : Expansion)) ?_ fun expansion => walked.overlay node expansion
          split
          · exact .expandTarget (further _ (looped_cycleOf rfl))
          · rename_i onCycle
            split
            · exact further { here with inlined := key :: here.inlined } looped
            · have met := sound.met known.choose_spec.1
              have leads := looped key (by simpa using onCycle)
              exact .truncate (sound.circular plain filed leads) met (inside reference member) link
                target

/-! The document itself. -/

def UpholdsRoot (job : Job) (α : Type) (x : Expanding α) : Prop :=
  ∀ bench, job.Ready bench → job.Reported bench.shelf →
    job.Reported (x.run bench).2.shelf ∧ ∀ a, (x.run bench).1 = .ok a → job.Ready (x.run bench).2

theorem UpholdsRoot.keeps (job : Job) : Keeps (n := Id) fun α x _ => job.UpholdsRoot α x where
  pure _ bench ready reported := ⟨reported, fun _ _ => ready⟩
  bind first rest bench ready reported := by
    have middle := first bench ready reported
    rw [run_bind]
    split
    · rename_i a after begun
      rw [begun] at middle
      exact rest a after (middle.2 a rfl) middle.1
    · rename_i problem after begun
      rw [begun] at middle
      exact ⟨middle.1, nofun⟩

theorem Upholds.root {α : Type} {x : Inlining α} (upholds : job.Upholds α x) :
    job.UpholdsRoot α (Expanding.ofInlining x) := by
  intro bench ready reported
  rw [Expanding.ofInlining_run]
  exact ⟨upholds bench.shelf reported, fun _ _ => ⟨ready.sound, ready.closed⟩⟩

theorem followRoot_upholds (plain : job.Plain) (limit : Nat)
    (inside : ∀ reference ∈ referencesOf value, reference ∈ referencesOf job.document) :
    job.UpholdsRoot _
      (walk (Expanding.followRoot job.around limit job.document job.location) none value) := by
  refine walk_holds (UpholdsRoot.keeps job) (fun _ _ (_ : True) => trivial) ?_ trivial
  intro reference member scope node siblings _ walked bench ready reported
  rcases followRoot_cases plain.keysAgree ready (inside reference member) limit scope node siblings
    with ⟨-, -, survey, lookup, -, ready', same⟩ | ⟨problem, survey, -, same⟩ |
      ⟨key, survey, target, -, filed, explored, ready', same⟩
  · rw [same]
    exact (Upholds.keep job node reference lookup).root _ ready' reported
  · rw [same]
    exact ⟨reported, nofun⟩
  · have expanded : job.Upholds _ (Inlining.expand job.around survey key target) :=
      .expandTarget (followIn_upholds ready'.sound plain ready'.closed ⟨key, filed, explored⟩
        (fun _ within => within) (looped_cycleOf rfl))
    rw [same]
    refine (UpholdsRoot.keeps job).bind (y := (.scalar .null : Expansion)) (g := fun _ =>
      (.scalar .null : Expansion)) expanded.root (fun expansion => ?_) _ ready' reported
    exact (UpholdsRoot.keeps job).overlay (y := ([] : Members Expansion)) walked expansion

theorem document_reported (plain : job.Plain) (limit : Nat) :
    job.Reported ((Expanding.document job.around limit job.document job.location).run
      { survey := { documents := job.known } }).2.shelf :=
  (followRoot_upholds plain limit (fun _ within => within) _ (.initial job) (.fresh job)).1

end Job

/--
Whatever comes of a run on a loaded document, the entries that tell of circles belong to different
keys, each of a target that leads back to itself. So there are at most as many of them as such keys,
and none where no target leads back to itself.
-/
theorem dereferenceWithin_circles {location : String} {document : Value} {before work : Work}
    (hashless : Hashless location) (here : ∀ name ∈ work.world.disk.workingDirectory, Hashless name)
    (loaded : (loadRaw location).run before = (.ok document, work)) (limit : Nat) :
    ∃ entries keys,
      ((dereferenceWithin limit document (some location)).run work).2.world.log =
        work.world.log ++ entries ∧
      List.Forall₂ (work.job document (some location)).Tells (circleEntries entries) keys ∧
      keys.Nodup ∧ (∀ key ∈ keys, (work.job document (some location)).Circular key) ∧
      ∀ circles : List String,
        (∀ key, (work.job document (some location)).Circular key → key ∈ circles) →
          (circleEntries entries).length ≤ circles.length := by
  let shelf := ((Expanding.document (surroundings work) limit document (some location)).run
    { survey := { documents := work.loader.documents } }).2.shelf
  have reported : (work.job document (some location)).Reported shelf :=
    Job.document_reported (Work.job_plain hashless loaded here) limit
  refine ⟨shelf.log, _, rfl, reported.told, (List.reverse_perm _).nodup_iff.mpr reported.distinct,
    fun key inside => reported.circular key (List.mem_reverse.mp inside), fun circles all => ?_⟩
  have enough : (shelf.truncated.map Prod.fst).length ≤ circles.length :=
    (reported.distinct.subperm fun key inside => all key (reported.circular key inside)).length_le
  calc (circleEntries shelf.log).length
      = (shelf.truncated.map Prod.fst).reverse.length := reported.told.length_eq
    _ = (shelf.truncated.map Prod.fst).length := List.length_reverse
    _ ≤ circles.length := enough

end ApiCompiler.Loading
