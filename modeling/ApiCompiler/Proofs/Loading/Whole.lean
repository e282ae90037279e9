import ApiCompiler.Proofs.Loading.Alone

/-!
The document as a whole. There is a result, and only one, unless a reference of the document that is
followed breaks down, or one in what it leads to. Which references are followed depends on the documents
alone.
-/

namespace ApiCompiler.Loading

open Openapi Relation

namespace Job

variable {job : Job} {survey : Survey} {home target : Target} {value : Value} {key reference : String}
  {depth : Nat}

/-! References that do not break down. -/

/-- Nothing breaks down where a reference of the document is followed, nor in what it leads to. -/
def Whole (job : Job) (reference : String) : Prop :=
  ∀ problem, ¬job.BrokenAt job.start reference problem

theorem Known.unbroken (known : Known survey home) (sound : job.Sound survey) (plain : job.Plain)
    (closed : Closed survey) (reached : ReflTransGen job.Refers home target)
    (inside : reference ∈ referencesOf target.value) : job.broken? target reference = none := by
  have known' : Known survey target := by
    clear inside
    induction reached with
    | refl => exact known
    | tail _ refers ih => exact (Known.enclosed sound plain closed).onward _ _ ih refers
  obtain ⟨key, filed, explored⟩ := known'
  exact ((explored.successors sound filed).2 reference inside).unbroken

theorem whole_of_lost (link : job.link? job.start reference = none)
    (unbroken : job.broken? job.start reference = none) : job.Whole reference := by
  rintro problem (broken | ⟨target, leads, -⟩)
  · rw [unbroken] at broken
    cases broken
  · rw [link?_eq_none link] at leads
    cases leads

theorem whole_of_explored (sound : job.Sound survey) (plain : job.Plain) (closed : Closed survey)
    (filed : survey.target? key = some target) (explored : Explored survey key)
    (link : job.link? job.start reference = some key)
    (leads : job.target? job.start reference = some target) : job.Whole reference := by
  rintro problem (broken | ⟨other, leads', last, reached, further, inside, broken⟩)
  · rw [broken?_of_link link] at broken
    cases broken
  · rw [leads] at leads'
    cases leads'
    have known : Known survey target := ⟨key, filed, explored⟩
    rw [known.unbroken sound plain closed reached inside] at broken
    cases broken

open Classical in
/-- Follows a reference of the document on its own, if that is possible without a breakdown. -/
noncomputable def followWhole (job : Job) (depth : Nat) : Follow Option :=
  fun scope node reference siblings =>
    if job.Whole reference then job.followAlone depth job.start scope node reference siblings else none

section Follow

variable {scope : Option Scope} {node : Members Value} {siblings : Option (Members Expansion)}

theorem followWhole_of_whole (whole : job.Whole reference) :
    job.followWhole depth scope node reference siblings =
      job.followAlone depth job.start scope node reference siblings := by
  rw [followWhole, if_pos whole]

theorem followWhole_eq_some {expansion : Expansion}
    (found : job.followWhole depth scope node reference siblings = some expansion) :
    job.Whole reference ∧
      job.followAlone depth job.start scope node reference siblings = some expansion := by
  rw [followWhole] at found
  split at found
  · exact ⟨by assumption, found⟩
  · cases found

end Follow

theorem followWhole_mono {more : Nat} (deeper : depth ≤ more) (scope : Option Scope) :
    Entails _ (walk (job.followWhole depth) scope value)
      (walk (job.followWhole more) scope value) := by
  refine walk_related_eq Entails.keeps (fun reference _ scope node siblings siblings' related => ?_)
    scope
  intro expansion found
  obtain ⟨whole, found⟩ := followWhole_eq_some found
  rw [followWhole_of_whole whole]
  exact followAlone_entails deeper scope node reference related expansion found

/-! What a run gives. -/

def RealizesRoot (job : Job) (α : Type) (x : Expanding α) (y : ReaderT Nat Option α) : Prop :=
  ∀ bench, job.Ready bench → job.Canonical bench.shelf → ∀ a after, x.run bench = (.ok a, after) →
    job.Ready after ∧ job.Canonical after.shelf ∧ Settles y a

theorem RealizesRoot.keeps (job : Job) : Keeps job.RealizesRoot where
  pure a bench ready canonical b after ran := by
    cases ran
    exact ⟨ready, canonical, 0, fun _ _ => rfl⟩
  bind begun rest bench ready canonical b after ran := by
    obtain ⟨a, middle, first, second⟩ := run_bind_eq_ok ran
    obtain ⟨ready', still, settles⟩ := begun bench ready canonical a middle first
    obtain ⟨ready'', still', settles'⟩ := rest a middle ready' still b after second
    exact ⟨ready'', still', settles.bind settles'⟩

theorem Realizes.root {α : Type} {x : Inlining α} {y : ReaderT Nat Option α}
    (realizes : job.Realizes α x y) : job.RealizesRoot α (Expanding.ofInlining x) y := by
  intro bench ready canonical a after ran
  rw [Expanding.ofInlining_run] at ran
  obtain ⟨result, rfl⟩ := Prod.mk.inj ran
  obtain ⟨still, settles⟩ := realizes bench.shelf canonical a _ (Prod.ext result rfl)
  exact ⟨⟨ready.sound, ready.closed⟩, still, settles⟩

theorem atDepth_followWhole (whole : job.Whole reference) (scope : Option Scope)
    (node : Members Value) (siblings : ReaderT Nat Option (Members Expansion)) :
    atDepth job.followWhole scope node reference siblings =
      job.followAt job.start scope node reference siblings :=
  ReaderT.ext fun _ => followWhole_of_whole whole

/-- What a run gives is what belongs to the document; where there is a result, nothing broke down. -/
theorem followRoot_realizes (plain : job.Plain) (limit : Nat)
    (inside : ∀ reference ∈ referencesOf value, reference ∈ referencesOf job.document) :
    job.RealizesRoot _
      (walk (Expanding.followRoot job.around limit job.document job.location) none value)
      (walk (atDepth job.followWhole) none value) := by
  let scopes (_first second : Option Scope) := second = none
  have together : scopes none none := rfl
  refine walk_related (RealizesRoot.keeps job) (fun _ _ _ same => by rw [same]; rfl) together value ?_
  rintro reference member scope _ node siblings siblings' rfl related bench ready canonical a after ran
  rcases followRoot_cases plain.keysAgree ready (inside reference member) limit scope node siblings
    with ⟨link, unbroken, survey, lookup, -, ready', same⟩ | ⟨problem, survey, -, same⟩ |
      ⟨key, survey, target, link, filed, explored, ready', same⟩
  · rw [same] at ran
    rw [atDepth_followWhole (whole_of_lost link unbroken)]
    exact (Realizes.keep (followAt_of_lost link) reference lookup).root _ ready' canonical a after ran
  · rw [same] at ran
    cases ran
  · have leads := ready'.sound.target?_of_link plain .refl link filed
    have whole := whole_of_explored ready'.sound plain ready'.closed filed explored link leads
    have expanded := Realizes.expandTarget ready'.sound plain filed
      (target_realizes ready'.sound plain ready'.closed filed explored
        (Inlining.greatestDepth survey))
    rw [same] at ran
    rw [atDepth_followWhole whole, followAt_of_link link leads]
    exact (RealizesRoot.keeps job).bind (expanded.succ (y := job.instead _ key target)).root
      (fun expansion => (RealizesRoot.keeps job).overlay related expansion) _ ready' canonical a after ran

theorem document_settles (plain : job.Plain) {limit : Nat} {expansion : Expansion} {after : Bench}
    (ran : (Expanding.document job.around limit job.document job.location).run
      { survey := { documents := job.known } } = (.ok expansion, after)) :
    ∃ depth, walk (job.followWhole depth) none job.document = some expansion := by
  obtain ⟨-, -, least, found⟩ := followRoot_realizes plain limit (fun _ inside => inside) _
    (.initial job) (.empty job) expansion after ran
  rw [walk_atDepth] at found
  exact ⟨least, found least (Nat.le_refl _)⟩

/-! There is a run that gives what belongs to the document, if that is anything. -/

/-- If the other computation has a result, the one gives the same. -/
def Achieves (job : Job) (α : Type) (x : Expanding α) (y : Option α) : Prop :=
  ∀ a, y = some a → ∀ bench, job.Ready bench → job.Canonical bench.shelf → ∃ after,
    x.run bench = (.ok a, after) ∧ job.Ready after ∧ job.Canonical after.shelf

theorem Achieves.keeps (job : Job) : Keeps job.Achieves where
  pure a b same bench ready canonical := by
    cases same
    exact ⟨bench, rfl, ready, canonical⟩
  bind begun rest b same bench ready canonical := by
    obtain ⟨a, found, found'⟩ := Option.bind_eq_some_iff.mp same
    obtain ⟨middle, ran, ready', still⟩ := begun a found bench ready canonical
    rw [run_bind, ran]
    exact rest a b found' middle ready' still

theorem Total.achieves {α : Type} {x : Inlining α} {y : Option α} (total : Total α x)
    {z : ReaderT Nat Option α} (realizes : job.Realizes α x z)
    (same : ∀ a b, y = some a → Settles z b → b = a) :
    job.Achieves α (Expanding.ofInlining x) y := by
  intro a found bench ready canonical
  obtain ⟨b, shelf, ran⟩ := total bench.shelf
  obtain ⟨still, settles⟩ := realizes bench.shelf canonical b shelf ran
  obtain rfl := same a b found settles
  refine ⟨{ bench with shelf }, ?_, ⟨ready.sound, ready.closed⟩, still⟩
  rw [Expanding.ofInlining_run, ran]

theorem followRoot_achieves (plain : job.Plain) {all : List String} {most limit : Nat}
    (bounded : job.Bounded all most) (enough : 1 + most * all.length ≤ limit)
    (inside : ∀ reference ∈ referencesOf value, reference ∈ referencesOf job.document) :
    job.Achieves _
      (walk (Expanding.followRoot job.around limit job.document job.location) none value)
      (walk (job.followWhole depth) none value) := by
  let scopes (_first second : Option Scope) := second = none
  have together : scopes none none := rfl
  refine walk_related (Achieves.keeps job) (fun _ _ _ same => by rw [same]; rfl) together value ?_
  rintro reference member scope _ node siblings siblings' rfl related expansion found bench ready
    canonical
  obtain ⟨whole, found⟩ := followWhole_eq_some found
  obtain ⟨depth, rfl⟩ : ∃ less, depth = less + 1 := by
    cases depth with
    | zero => cases found
    | succ depth => exact ⟨depth, rfl⟩
  rcases followRoot_cases plain.keysAgree ready (inside reference member) limit scope node siblings
    with ⟨link, -, survey, lookup, kept, ready', same⟩ | ⟨problem, survey, stops, -⟩ |
      ⟨key, survey, target, link, filed, explored, ready', same⟩
  · rw [same]
    rw [followAlone_of_lost link] at found
    have settles : Settles (ReaderT.mk fun _ => some (.ofValue (.object node)))
      (Expansion.ofValue (.object node)) := ⟨0, fun _ _ => rfl⟩
    exact Total.achieves (.keep node reference kept) (.keep settles reference lookup)
      (fun _ _ one other => settles.unique other ▸ Option.some.inj one) expansion found _ ready' canonical
  · rcases stops.brokenAt plain with exceeded | broken
    · exact absurd enough (exceeded.limit_lt bounded)
    · exact absurd broken (whole problem)
  · have leads := ready'.sound.target?_of_link plain .refl link filed
    have expanded := Realizes.expandTarget ready'.sound plain filed
      (target_realizes ready'.sound plain ready'.closed filed explored
        (Inlining.greatestDepth survey))
    have total := expand_total ready'.sound plain.keysAgree ready'.closed explored filed
    have alone (base other : Expansion) (one : job.instead ⟨[], [], false⟩ key target (depth + 1) =
        some base) (settles : Settles (ReaderT.mk (job.alone · key target)) other) : other = base := by
      obtain ⟨least, settled⟩ := settles
      exact alone_unique (settled least (Nat.le_refl _)) one
    rw [same]
    rw [followAlone_of_link link leads] at found
    exact (Achieves.keeps job).bind (total.achieves expanded alone)
      (fun expansion => (Achieves.keeps job).overlay related expansion) expansion found _ ready'
      canonical

/-- What a run on the document gives. -/
abbrev outcome (job : Job) (limit : Nat) : Except Problem Expansion :=
  ((Expanding.document job.around limit job.document job.location).run
    { survey := { documents := job.known } }).1

theorem document_achieved (plain : job.Plain) (finite : job.Finite) {expansion : Expansion}
    (found : walk (job.followWhole depth) none job.document = some expansion) :
    ∃ least, ∀ limit ≥ least, job.outcome limit = .ok expansion := by
  obtain ⟨all, most, bounded⟩ := finite.bounded
  refine ⟨1 + most * all.length, fun limit enough => ?_⟩
  obtain ⟨after, ran, -⟩ := followRoot_achieves plain bounded enough (fun _ inside => inside)
    expansion found _ (.initial job) (.empty job)
  exact congrArg Prod.fst ran

/-- From some limit on all runs give the same, or all of them break down. -/
theorem document_outcome (plain : job.Plain) (finite : job.Finite) :
    (∃ depth expansion, walk (job.followWhole depth) none job.document = some expansion ∧
        ∃ least, ∀ limit ≥ least, job.outcome limit = .ok expansion) ∨
      (∀ depth, walk (job.followWhole depth) none job.document = none) ∧
        ∃ least, ∀ limit ≥ least, ∃ problem, job.outcome limit = .error problem ∧
          job.BrokenIn job.start job.document problem := by
  by_cases found : ∃ depth expansion, walk (job.followWhole depth) none job.document = some expansion
  · obtain ⟨depth, expansion, found⟩ := found
    exact .inl ⟨depth, expansion, found, document_achieved plain finite found⟩
  · have none (depth : Nat) : walk (job.followWhole depth) Option.none job.document = Option.none :=
      Option.eq_none_iff_forall_ne_some.mpr fun expansion given => found ⟨depth, expansion, given⟩
    obtain ⟨all, most, bounded⟩ := finite.bounded
    refine .inr ⟨none, 1 + most * all.length, fun limit enough => ?_⟩
    rcases walk_concludes plain.keysAgree (fun _ inside => inside)
      (fun _ inside _ stops => (stops.brokenIn plain inside).resolve_left fun exceeded =>
        exceeded.limit_lt bounded enough) _ (.initial job) with
      ⟨expansion, after, ran, -⟩ | ⟨problem, after, ran, broken⟩
    · obtain ⟨depth, given⟩ := document_settles plain ran
      rw [none depth] at given
      cases given
    · exact ⟨problem, congrArg Prod.fst ran, broken⟩

end Job

theorem dereferenceWithin_of_outcome {work : Work} {document : Value} {location : Option String}
    {limit : Nat} {result : Except Problem Expansion}
    (ran : (work.job document location).outcome limit = result) :
    ∃ after, (dereferenceWithin limit document location).run work = (result, after) :=
  ⟨((dereferenceWithin limit document location).run work).2, Prod.ext ran rfl⟩

end ApiCompiler.Loading
