import ApiCompiler.Proofs.Loading.Bareness

/-!
Schemas that a schema is composed of reach it in full, whether or not they lead back to it.
-/

namespace ApiCompiler.Loading

open Openapi Relation

/-- What stands where one goes down from an object to members of its composition, by their positions. -/
def composedAt : Expansion → List Nat → Option Expansion
  | expansion, [] => some expansion
  | .object members _ _, i :: rest =>
      match Members.find? "allOf" members with
      | some (.list items) => items[i]?.bind fun item => composedAt item rest
      | _ => none
  | _, _ :: _ => none

theorem Forms.composedAt {becomes : Becomes} {scope : Scope} {value item : Value}
    {expansion : Expansion} {members : Members Value} {items : List Value} {i : Nat}
    (forms : Forms becomes scope value expansion) (own : IsOwn value members)
    (list : members.find? "allOf" = some (.list items)) (place : items[i]? = some item) :
    ∃ part, (∀ rest, Loading.composedAt expansion (i :: rest) = Loading.composedAt part rest) ∧
      Forms becomes (scope.within (.text "allOf")) item part := by
  obtain ⟨members', rfl, inside⟩ := forms.of_own own
  rcases inside.find? "allOf" with ⟨absent, -⟩ | ⟨value, expansion, found, found', here⟩
  · rw [list] at absent
    cases absent
  · rw [list] at found
    cases found
    rw [Forms] at here
    obtain ⟨expansions, rfl, here⟩ := here
    obtain ⟨part, there, formed⟩ := here.getElem? place
    refine ⟨part, fun rest => ?_, formed⟩
    rw [Expansion.ofMembers, Loading.composedAt, found']
    dsimp only
    rw [there, Option.bind_some]

theorem Scope.within_composition {scope : Scope} (composing : scope.composing = true) :
    scope.within (.text "allOf") = scope := by
  have kept : (scope.composing && compositionKeys.contains "allOf") = scope.composing := by
    rw [composing]
    rfl
  cases scope
  exact congrArg (Scope.mk _ _) kept

theorem overlay_alone {m : Type → Type} [Monad m] {node : Members Value} (alone : node.length ≤ 1)
    (siblings : m (Members Expansion)) (base : Expansion) :
    overlay node siblings base = pure base := by
  cases base with
  | scalar s => rfl
  | list items => rfl
  | object members plain schema => rw [overlay, if_pos alone]

namespace Job

variable {job : Job} {survey : Survey} {home target : Target} {value : Value} {scope : Scope}
  {depth : Nat} {key reference : String} {node : Members Value}

/-! What a reference gives way to. -/

/-- The expansion of a target, its value inlined, or its value cut short. -/
inductive Yields (job : Job) (survey : Survey) (depth : Nat) (scope : Scope) (key : String)
    (target : Target) (before : Shelf) (expansion : Expansion) : Prop
  | shared (outside : key ∉ scope.cycle) (listed : before.expanded.lookup key = some expansion)
  | expanded {after : Shelf} (outside : key ∉ scope.cycle)
      (ran : (walk (Inlining.followIn job.around survey depth target)
        (some ⟨survey.cycleOf key, [key], true⟩) target.value).run before = (.ok expansion, after))
  | inlined {after : Shelf} (composing : scope.composing = true) (new : key ∉ scope.inlined)
      (ran : (walk (Inlining.followIn job.around survey depth target)
        (some { scope with inlined := key :: scope.inlined }) target.value).run before =
          (.ok expansion, after))
  | cut (again : scope.composing = true → key ∈ scope.inlined)
      (short : before.truncated.lookup key = some expansion ∨
        expansion = .ofValue (Inlining.withoutNested target.value))

theorem Known.followIn_yields (known : Known survey home) (sound : job.Sound survey)
    (plain : job.Plain) (closed : Closed survey) (inside : reference ∈ referencesOf home.value)
    (link : job.link? home reference = some key) {siblings : Inlining (Members Expansion)}
    {before after : Shelf} {expansion : Expansion}
    (ran : (Inlining.followIn job.around survey (depth + 1) home (some scope) node reference
      siblings).run before = (.ok expansion, after)) :
    ∃ target base middle, survey.target? key = some target ∧ Explored survey key ∧
      job.target? home reference = some target ∧
      Yields job survey depth scope key target before base ∧
      (overlay node siblings base).run middle = (.ok expansion, after) := by
  rcases known.find sound plain.keysAgree closed inside with
    ⟨lost, -⟩ | ⟨key', target, link', found, filed, explored⟩
  · rw [link] at lost
    cases lost
  · rw [link] at link'
    cases link'
    obtain ⟨_, there, -⟩ := known
    have leads := sound.target?_of_link plain (sound.met there) link filed
    rw [Inlining.followIn_of_found found filed] at ran
    obtain ⟨base, middle, begun, ran⟩ := run_bind_eq_ok ran
    refine ⟨target, base, middle, filed, explored, leads, ?_, ran⟩
    split at begun
    · rename_i outside
      have outside : key ∉ scope.cycle := by simpa using outside
      rw [Inlining.expandTarget_run] at begun
      split at begun
      · rename_i listed
        cases begun
        exact .shared outside listed
      · split at begun
        · rename_i walked
          cases begun
          exact .expanded outside walked
        · cases begun
    · split at begun
      · rename_i new
        rw [Bool.and_eq_true] at new
        exact .inlined new.1 (by simpa using new.2) begun
      · rename_i again
        rw [Inlining.truncate_run] at begun
        refine .cut (fun composing => ?_) ?_
        · rw [composing] at again
          simpa using again
        · split at begun
          · rename_i listed
            cases begun
            exact .inl listed
          · cases begun
            exact .inr rfl

/-! Composition. -/

/--
A chain of targets, each composed of the next one by a reference with nothing beside it: the position
of each reference and the key that it is filed under.
-/
inductive Composed (job : Job) : Target → List (Nat × String) → Target → Prop
  | nil (home : Target) : Composed job home [] home
  | cons {home next last : Target} {members node : Members Value} {items : List Value} {i : Nat}
      {reference key : String} {rest : List (Nat × String)} (own : IsOwn home.value members)
      (list : members.find? "allOf" = some (.list items)) (place : items[i]? = some (.object node))
      (alone : node.length ≤ 1) (refers : reference? node = some reference)
      (link : job.link? home reference = some key) (leads : job.target? home reference = some next)
      (onward : Composed job next rest last) : Composed job home ((i, key) :: rest) last

/-- At the end of each chain that passes none of some targets, the last of the chain stands in full. -/
def Composes (job : Job) (without : List String) (home : Target) (expansion : Expansion) : Prop :=
  ∀ path last, job.Composed home path last → (path.map Prod.snd).Nodup →
    (∀ key ∈ path.map Prod.snd, key ∉ without) → ∃ part scope,
      composedAt expansion (path.map Prod.fst) = some part ∧ Forms job.Turned scope last.value part

theorem Composes.mono {without without' : List String} {expansion : Expansion}
    (composes : job.Composes without home expansion)
    (more : ∀ key ∈ without, key ∈ without') : job.Composes without' home expansion :=
  fun path last composed distinct apart => composes path last composed distinct
    fun key inside again => apart key inside (more key again)

/-- A target composed of itself holds itself cut short. -/
def HoldsCut (job : Job) (key : String) (target : Target) (expansion : Expansion) : Prop :=
  ∀ members items i node reference, IsOwn target.value members →
    Members.find? "allOf" members = some (.list items) → items[i]? = some (.object node) →
      node.length ≤ 1 → reference? node = some reference → job.link? target reference = some key →
        composedAt expansion [i] = some (.ofValue (Inlining.withoutNested target.value))

/-- All that is on the shelf holds what it is composed of. -/
structure Upright (job : Job) (shelf : Shelf) : Prop where
  expanded : ∀ key expansion, shelf.expanded.lookup key = some expansion → ∀ target,
    job.Filed key target →
      job.Composes [key] target expansion ∧ job.HoldsCut key target expansion
  truncated : ∀ key expansion, shelf.truncated.lookup key = some expansion → ∀ target,
    job.Filed key target → expansion = .ofValue (Inlining.withoutNested target.value)

theorem Composes.settled {without : List String} {expansion : Expansion}
    (composes : job.Composes without home expansion) (tidy : job.Tidy)
    (notText : home.value.text? = none) : Settled expansion := by
  obtain ⟨part, scope, here, forms⟩ := composes [] home (.nil home) List.nodup_nil
    (fun _ absurd => nomatch absurd)
  cases here
  exact forms.settled tidy notText

/-- The walk through part of a known target, with what is known of the references in it. -/
theorem Known.walk_followed (known : Known survey home)
    (steady : job.Steady survey job.Upright depth)
    (inside : ∀ reference ∈ referencesOf value, reference ∈ referencesOf home.value)
    {before after : Shelf} (upright : job.Upright before) {expansion : Expansion}
    (ran : (walk (Inlining.followIn job.around survey depth home) (some scope) value).run before =
      (.ok expansion, after)) :
    Forms (Followed (Inlining.followIn job.around survey depth home) job.Upright
      (referencesOf home.value)) scope value expansion :=
  walk_forms (fun scope part within before upright expansion after ran =>
    steady home part scope known within before upright expansion after ran) value inside upright ran

section Walk

variable (sound : job.Sound survey) (plain : job.Plain) (closed : Closed survey)
include sound plain closed

theorem Known.walk_turned (known : Known survey home)
    (steady : ∀ less ≤ depth, job.Steady survey job.Upright less)
    (inside : ∀ reference ∈ referencesOf value, reference ∈ referencesOf home.value)
    {before after : Shelf} (upright : job.Upright before) {expansion : Expansion}
    (ran : (walk (Inlining.followIn job.around survey depth home) (some scope) value).run before =
      (.ok expansion, after)) : Forms job.Turned scope value expansion := by
  induction depth generalizing home value scope before after expansion with
  | zero =>
      refine Forms.mono (fun _ _ _ _ followed => ?_) value
        (known.walk_followed (steady 0 (Nat.le_refl _)) inside upright ran)
      obtain ⟨-, -, _, _, -, ran⟩ := followed
      cases ran
  | succ depth ih =>
      refine Forms.mono (fun here node reference part followed tidy => ?_) value
        (known.walk_followed (steady _ (Nat.le_refl _)) inside upright ran)
      obtain ⟨within, refers, before, after, upright, ran⟩ := followed
      have member : reference ∈ referencesOf home.value :=
        within reference (mem_referencesOf_object refers)
      obtain ⟨target, leads, notText⟩ := tidy home (sound.met known.choose_spec.1) reference member
      obtain ⟨key, link⟩ := job.exists_link leads
      obtain ⟨target, base, middle, filed, explored, leads', yields, ran⟩ :=
        known.followIn_yields sound plain closed member link ran
      rw [leads] at leads'
      cases leads'
      have filed' : job.Filed key target := sound.targets key target filed
      have walked (scope : Scope) {after : Shelf}
          (ran : (walk (Inlining.followIn job.around survey depth target) (some scope)
            target.value).run before = (.ok base, after)) : Settled base :=
        (ih ⟨key, filed, explored⟩ (fun less within => steady less (Nat.le_succ_of_le within))
          (fun _ within => within) upright ran).settled tidy notText
      refine Settled.overlay ?_ ran
      cases yields with
      | shared _ listed =>
          exact (upright.expanded key base listed target filed').1.settled tidy notText
      | expanded _ ran => exact walked _ ran
      | inlined _ _ ran => exact walked _ ran
      | cut _ short =>
          rcases short with listed | rfl
          · rw [upright.truncated key base listed target filed']
            exact settled_withoutNested notText
          · exact settled_withoutNested notText

theorem Known.walk_composes (known : Known survey home)
    (steady : ∀ less ≤ depth, job.Steady survey job.Upright less)
    (composing : scope.composing = true) {before after : Shelf} (upright : job.Upright before)
    {expansion : Expansion}
    (ran : (walk (Inlining.followIn job.around survey depth home) (some scope) home.value).run
      before = (.ok expansion, after)) : job.Composes scope.inlined home expansion := by
  -- The induction is on the depth of the run, not on the chain: where the chain comes to a target that
  -- is on the shelf, no run follows it any further.
  induction depth using Nat.strongRecOn generalizing home scope before after expansion with
  | _ depth ih =>
      intro path last composed distinct apart
      cases composed with
      | nil =>
          exact ⟨expansion, scope, rfl, known.walk_turned sound plain closed steady
            (fun _ within => within) upright ran⟩
      | @cons _ next _ members node items i reference key rest own list place alone refers link
          leads onward =>
          obtain ⟨part, step, followed⟩ := (known.walk_followed (steady depth (Nat.le_refl _))
            (fun _ within => within) upright ran).composedAt own list place
          rw [Forms, refers, Scope.within_composition composing] at followed
          obtain ⟨within, -, before, after, upright, ran⟩ := followed
          have member : reference ∈ referencesOf home.value :=
            within reference (mem_referencesOf_object refers)
          rw [List.map_cons, List.nodup_cons] at distinct
          rw [List.map_cons, List.forall_mem_cons] at apart
          cases depth with
          | zero => cases ran
          | succ depth =>
              obtain ⟨target, base, middle, filed, explored, leads', yields, ran⟩ :=
                known.followIn_yields sound plain closed member link ran
              rw [leads] at leads'
              cases leads'
              rw [overlay_alone alone] at ran
              cases ran
              have inner (scope : Scope) (composing : scope.composing = true) {after : Shelf}
                  (ran : (walk (Inlining.followIn job.around survey depth next) (some scope)
                    next.value).run before = (.ok part, after)) :
                  job.Composes scope.inlined next part :=
                ih depth (Nat.lt_succ_self _) ⟨key, filed, explored⟩
                  (fun less within => steady less (Nat.le_succ_of_le within)) composing upright ran
              have composes : job.Composes (key :: scope.inlined) next part := by
                cases yields with
                | shared _ listed =>
                    exact (upright.expanded key part listed next (sound.targets key next filed)).1.mono
                      (by simp)
                | expanded _ ran => exact (inner _ rfl ran).mono (by simp)
                | inlined still _ ran => exact inner { scope with inlined := key :: scope.inlined } still ran
                -- Only what was inlined on the way is cut short, and the chain passes none of that.
                | cut again _ => exact absurd (again composing) apart.1
              obtain ⟨end', there, reached, forms⟩ := composes rest last onward distinct.2
                fun other inside => by
                  rw [List.mem_cons, not_or]
                  exact ⟨fun same => distinct.1 (same ▸ inside), apart.2 other inside⟩
              exact ⟨end', there, (step _).trans reached, forms⟩

theorem Known.walk_holdsCut (filed : survey.target? key = some target)
    (explored : Explored survey key) (steady : job.Steady survey job.Upright depth)
    {before after : Shelf} (upright : job.Upright before) {expansion : Expansion}
    (ran : (walk (Inlining.followIn job.around survey depth target)
      (some ⟨survey.cycleOf key, [key], true⟩) target.value).run before = (.ok expansion, after)) :
    job.HoldsCut key target expansion := by
  intro members items i node reference own list place alone refers link
  have known : Known survey target := ⟨key, filed, explored⟩
  obtain ⟨part, step, followed⟩ := (known.walk_followed steady (fun _ within => within) upright
    ran).composedAt own list place
  rw [Forms, refers, Scope.within_composition rfl] at followed
  obtain ⟨within, -, before, after, upright, ran⟩ := followed
  have member : reference ∈ referencesOf target.value :=
    within reference (mem_referencesOf_object refers)
  cases depth with
  | zero => cases ran
  | succ depth =>
      obtain ⟨target', base, middle, filed', -, leads, yields, ran⟩ :=
        known.followIn_yields sound plain closed member link ran
      rw [filed] at filed'
      cases filed'
      rw [overlay_alone alone] at ran
      cases ran
      have leads : Leads survey key key := by
        rw [Leads, Step, (explored.successors sound filed).1]
        exact mem_linksOf.mpr ⟨reference, member, link⟩
      have inside : key ∈ survey.cycleOf key := survey.mem_cycleOf.mpr ⟨.single leads, .single leads⟩
      rw [step, composedAt]
      cases yields with
      | shared outside _ => exact absurd inside outside
      | expanded outside _ => exact absurd inside outside
      | inlined _ new _ => exact absurd (List.mem_singleton.mpr rfl) new
      | cut _ short =>
          rcases short with listed | rfl
          · rw [upright.truncated key part listed target (sound.targets key target filed)]
          · rfl

end Walk

theorem Upright.stable (plain : job.Plain) : job.Stable job.Upright where
  expanded survey sound closed key target filed explored depth steady shelf expansion after before
      still ran := by
    refine ⟨fun other found listed target' filed' => ?_, still.truncated⟩
    rw [List.lookup_cons] at listed
    split at listed
    · rename_i same
      obtain rfl := eq_of_beq same
      cases listed
      obtain rfl := plain.filed_unique (sound.targets _ target filed) filed'
      have known : Known survey target := ⟨_, filed, explored⟩
      exact ⟨known.walk_composes sound plain closed steady rfl before ran,
        Known.walk_holdsCut sound plain closed filed explored (steady depth (Nat.le_refl _)) before ran⟩
    · exact still.expanded other found listed target' filed'
  truncated survey sound key target filed shelf before := by
    refine ⟨before.expanded, fun other found listed target' filed' => ?_⟩
    rw [List.lookup_cons] at listed
    split at listed
    · rename_i same
      obtain rfl := eq_of_beq same
      cases listed
      rw [plain.filed_unique (sound.targets _ target filed) filed']
    · exact before.truncated other found listed target' filed'
  told _ _ before := ⟨before.expanded, before.truncated⟩

theorem Reached.upright (plain : job.Plain) {bench : Bench} (reached : job.Reached bench) :
    job.Ready bench ∧ job.Upright bench.shelf :=
  reached.kept (Upright.stable plain) plain.keysAgree ⟨nofun, nofun⟩

theorem Reached.expand_composes (plain : job.Plain) {bench : Bench} (reached : job.Reached bench)
    (filed : bench.survey.target? key = some target) (explored : Explored bench.survey key) :
    ∃ expansion after, (Inlining.expand job.around bench.survey key target).run bench.shelf =
        (.ok expansion, after) ∧
      job.Composes [key] target expansion ∧ job.HoldsCut key target expansion := by
  obtain ⟨ready, upright⟩ := reached.upright plain
  obtain ⟨expansion, after, ran⟩ :=
    expand_total ready.sound plain.keysAgree ready.closed explored filed bench.shelf
  refine ⟨expansion, after, ran, ?_⟩
  have filed' : job.Filed key target := ready.sound.targets key target filed
  have steady (depth : Nat) : job.Steady bench.survey job.Upright depth :=
    (Upright.stable plain).steady ready.sound plain.keysAgree ready.closed depth
  rw [Inlining.expand, Inlining.expandTarget_run] at ran
  split at ran
  · rename_i listed
    cases ran
    exact upright.expanded key _ listed target filed'
  · split at ran
    · rename_i walked
      cases ran
      have known : Known bench.survey target := ⟨key, filed, explored⟩
      exact ⟨known.walk_composes ready.sound plain ready.closed (fun less _ => steady less) rfl
        upright walked, Known.walk_holdsCut ready.sound plain ready.closed filed explored (steady _)
          upright walked⟩
    · cases ran

end Job

end ApiCompiler.Loading
