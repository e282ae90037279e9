import ApiCompiler.Proofs.Loading.Sharing

/-!
The expansion of a target on its own, with nothing shared and nothing remembered. It depends on the key
of the target and on the documents alone, and it is what any run puts in the place of a reference.
-/

namespace ApiCompiler.Loading

open Openapi Relation

namespace Job

variable {job : Job} {survey : Survey} {home target : Target} {value : Value} {key : String}
  {depth : Nat}

/-! Circles, as they are in the documents. -/

/-- A target holds a reference to what is filed under a key. -/
def Links (job : Job) (a b : String) : Prop :=
  ∃ target, job.Filed a target ∧ b ∈ job.links target

/-- Two targets lead to each other. -/
def OnCircle (job : Job) (key other : String) : Prop :=
  TransGen job.Links key other ∧ TransGen job.Links other key

open Classical in
/-- The targets that lie on a circle with one, unless there is no end of them. -/
noncomputable def circle (job : Job) (key : String) : List String :=
  if finite : ∃ keys : List String, ∀ other, other ∈ keys ↔ job.OnCircle key other then
    finite.choose
  else []

theorem mem_circle {keys : List String} (all : ∀ other, other ∈ keys ↔ job.OnCircle key other)
    (other : String) : other ∈ job.circle key ↔ job.OnCircle key other := by
  have finite : ∃ keys : List String, ∀ other, other ∈ keys ↔ job.OnCircle key other := ⟨keys, all⟩
  rw [circle, dif_pos finite]
  exact finite.choose_spec other

theorem Closed.explored_of_leads (closed : Closed survey) {a b : String} (leads : Leads survey a b) :
    Explored survey b := by
  rw [Leads, Step, Survey.successors] at leads
  cases listed : survey.edges.lookup a with
  | none => rw [listed] at leads; cases leads
  | some links =>
      rw [listed] at leads
      exact (closed a links listed b leads).resolve_right List.not_mem_nil

theorem Sound.leads_iff (sound : job.Sound survey) (plain : job.Plain) {a b : String}
    (explored : Explored survey a) : Leads survey a b ↔ job.Links a b := by
  obtain ⟨links, listed⟩ := Option.isSome_iff_exists.mp explored
  obtain ⟨target, filed, same, -⟩ := sound.edges a links listed
  have successors : survey.successors a = job.links target := by
    rw [Survey.successors, listed]
    exact same
  rw [Leads, Step, successors]
  constructor
  · exact fun leads => ⟨target, sound.targets a target filed, leads⟩
  · rintro ⟨other, filed', leads⟩
    obtain rfl := plain.filed_unique (sound.targets a target filed) filed'
    exact leads

theorem Sound.transGen_leads_iff (sound : job.Sound survey) (plain : job.Plain)
    (closed : Closed survey) {a b : String} (explored : Explored survey a) :
    TransGen (Leads survey) a b ↔ TransGen job.Links a b := by
  constructor
  · intro leads
    have both : Explored survey b ∧ TransGen job.Links a b := by
      induction leads with
      | single step =>
          exact ⟨closed.explored_of_leads step, .single ((sound.leads_iff plain explored).mp step)⟩
      | tail _ step ih =>
          exact ⟨closed.explored_of_leads step, ih.2.tail ((sound.leads_iff plain ih.1).mp step)⟩
    exact both.2
  · intro links
    have both : Explored survey b ∧ TransGen (Leads survey) a b := by
      induction links with
      | single link =>
          have step := (sound.leads_iff plain explored).mpr link
          exact ⟨closed.explored_of_leads step, .single step⟩
      | tail _ link ih =>
          have step := (sound.leads_iff plain ih.1).mpr link
          exact ⟨closed.explored_of_leads step, ih.2.tail step⟩
    exact both.2

theorem Closed.explored_of_transGen (closed : Closed survey) {a b : String}
    (leads : TransGen (Leads survey) a b) : Explored survey b := by
  cases leads with
  | single step => exact closed.explored_of_leads step
  | tail _ step => exact closed.explored_of_leads step

theorem Sound.mem_cycleOf_iff (sound : job.Sound survey) (plain : job.Plain)
    (closed : Closed survey) (explored : Explored survey key) (other : String) :
    other ∈ survey.cycleOf key ↔ other ∈ job.circle key := by
  have all : ∀ other, other ∈ survey.cycleOf key ↔ job.OnCircle key other := by
    intro other
    rw [survey.mem_cycleOf, Mutual, OnCircle, sound.transGen_leads_iff plain closed explored]
    refine and_congr_right fun ahead => ?_
    have reached := (sound.transGen_leads_iff plain closed explored).mpr ahead
    exact sound.transGen_leads_iff plain closed (closed.explored_of_transGen reached)
  rw [all, mem_circle all]

/-! The expansion of a target on its own. -/

/-- What stands in the place of a reference in a scope, where the references inside are so followed. -/
noncomputable def inPlace (job : Job) (follow : Target → Follow Option) (scope : Scope) (key : String)
    (target : Target) : Option Expansion :=
  if !scope.cycle.contains key then
    walk (follow target) (some ⟨job.circle key, [key], true⟩) target.value
  else if scope.composing && !scope.inlined.contains key then
    walk (follow target) (some { scope with inlined := key :: scope.inlined }) target.value
  else some (.ofValue (Inlining.withoutNested target.value))

/-- What becomes of a reference under a key to a target, where those inside are so followed. -/
noncomputable def replaced (job : Job) (follow : Target → Follow Option) (scope : Option Scope)
    (node : Members Value) (siblings : Option (Members Expansion)) :
    Option String → Option Target → Option Expansion
  | some key, some target =>
      job.inPlace follow (scope.getD ⟨[], [], false⟩) key target >>= overlay node siblings
  | _, _ => some (.ofValue (.object node))

/-- Follows a reference written in the document of a target as a run does, but shares nothing. -/
noncomputable def followAlone (job : Job) : (depth : Nat) → Target → Follow Option
  | 0, _, _, _, _, _ => none
  | depth + 1, home, scope, node, reference, siblings =>
      job.replaced (job.followAlone depth) scope node siblings (job.link? home reference)
        (job.target? home reference)

noncomputable def alone (job : Job) (depth : Nat) (key : String) (target : Target) :
    Option Expansion :=
  walk (job.followAlone depth target) (some ⟨job.circle key, [key], true⟩) target.value

/-- What stands in the place of a reference in a scope, where it is followed so many inside each other. -/
noncomputable def instead (job : Job) (scope : Scope) (key : String) (target : Target) :
    (depth : Nat) → Option Expansion
  | 0 => none
  | depth + 1 => job.inPlace (job.followAlone depth) scope key target

section Follow

variable {scope : Option Scope} {node : Members Value} {reference : String}
  {siblings : Option (Members Expansion)}

theorem followAlone_of_link (link : job.link? home reference = some key)
    (leads : job.target? home reference = some target) :
    job.followAlone depth home scope node reference siblings =
      job.instead (scope.getD ⟨[], [], false⟩) key target depth >>= overlay node siblings := by
  cases depth with
  | zero => rfl
  | succ depth => rw [followAlone, link, leads, replaced, instead]

theorem followAlone_of_lost (link : job.link? home reference = none) :
    job.followAlone (depth + 1) home scope node reference siblings =
      some (.ofValue (.object node)) := by
  rw [followAlone, link, replaced]
  exact nofun

end Follow

def Entails (α : Type) (x y : Option α) : Prop :=
  ∀ a, x = some a → y = some a

theorem Entails.keeps : Keeps (m := Option) (n := Option) Entails where
  pure a b same := same
  bind begun rest b found := by
    obtain ⟨a, here, found⟩ := Option.bind_eq_some_iff.mp found
    exact Option.bind_eq_some_iff.mpr ⟨a, begun a here, rest a b found⟩

theorem followAlone_entails {more : Nat} (deeper : depth ≤ more) (scope : Option Scope)
    (node : Members Value) (reference : String) {siblings siblings' : Option (Members Expansion)}
    (related : Entails _ siblings siblings') :
    Entails _ (job.followAlone depth home scope node reference siblings)
      (job.followAlone more home scope node reference siblings') := by
  induction depth generalizing more home scope node reference siblings siblings' with
  | zero => exact fun _ found => nomatch found
  | succ depth ih =>
      obtain ⟨more, rfl⟩ : ∃ less, more = less + 1 := ⟨more - 1, by omega⟩
      have inner {target : Target} {value : Value} (scope : Option Scope) :
          Entails _ (walk (job.followAlone depth target) scope value)
            (walk (job.followAlone more target) scope value) :=
        walk_related_eq Entails.keeps (fun reference _ scope node _ _ related =>
          ih (Nat.le_of_succ_le_succ deeper) scope node reference related) scope
      cases link : job.link? home reference with
      | none =>
          rw [followAlone_of_lost link, followAlone_of_lost link]
          exact fun _ same => same
      | some key =>
          obtain ⟨target, leads⟩ := Option.isSome_iff_exists.mp (link?_eq_some.mp link).1
          rw [followAlone_of_link link leads, followAlone_of_link link leads]
          refine Entails.keeps.bind ?_ fun expansion => Entails.keeps.overlay related expansion
          rw [instead, instead, inPlace, inPlace]
          split
          · exact inner _
          · split
            · exact inner _
            · exact fun _ same => same

theorem followAlone_mono {more : Nat} (deeper : depth ≤ more) (scope : Option Scope) :
    Entails _ (walk (job.followAlone depth home) scope value)
      (walk (job.followAlone more home) scope value) :=
  walk_related_eq Entails.keeps (fun reference _ scope node _ _ related =>
    followAlone_entails deeper scope node reference related) scope

theorem alone_mono {more : Nat} (deeper : depth ≤ more) {expansion : Expansion}
    (found : job.alone depth key target = some expansion) :
    job.alone more key target = some expansion :=
  followAlone_mono deeper _ expansion found

theorem alone_unique {other : Nat} {first second : Expansion}
    (one : job.alone depth key target = some first)
    (two : job.alone other key target = some second) : first = second := by
  have one' := alone_mono (Nat.le_max_left depth other) one
  rw [alone_mono (Nat.le_max_right depth other) two] at one'
  exact (Option.some.inj one').symm

/-! What a run has on its shelf. -/

/-- What is on the shelf for a key is what belongs to it. -/
structure Canonical (job : Job) (shelf : Shelf) : Prop where
  expanded : ∀ key expansion, shelf.expanded.lookup key = some expansion →
    ∀ target, job.Filed key target → ∃ depth, job.alone depth key target = some expansion
  truncated : ∀ key expansion, shelf.truncated.lookup key = some expansion →
    ∀ target, job.Filed key target → expansion = .ofValue (Inlining.withoutNested target.value)

theorem Canonical.empty (job : Job) : job.Canonical {} :=
  ⟨nofun, nofun⟩

theorem Canonical.told {shelf : Shelf} (canonical : job.Canonical shelf) (log : Log) :
    job.Canonical { shelf with log } :=
  ⟨canonical.expanded, canonical.truncated⟩

theorem Canonical.expand {shelf : Shelf} (canonical : job.Canonical shelf) (plain : job.Plain)
    (filed : job.Filed key target) {expansion : Expansion}
    (found : job.alone depth key target = some expansion) :
    job.Canonical { shelf with expanded := (key, expansion) :: shelf.expanded } := by
  refine ⟨fun other expansion' listed target' filed' => ?_, canonical.truncated⟩
  rw [List.lookup_cons] at listed
  split at listed
  · rename_i same
    obtain rfl := eq_of_beq same
    obtain rfl := plain.filed_unique filed filed'
    cases listed
    exact ⟨depth, found⟩
  · exact canonical.expanded other expansion' listed target' filed'

theorem Canonical.truncate {shelf : Shelf} (canonical : job.Canonical shelf) (plain : job.Plain)
    (filed : job.Filed key target) :
    job.Canonical { shelf with
      truncated := (key, .ofValue (Inlining.withoutNested target.value)) :: shelf.truncated } := by
  refine ⟨canonical.expanded, fun other expansion listed target' filed' => ?_⟩
  rw [List.lookup_cons] at listed
  split at listed
  · rename_i same
    obtain rfl := eq_of_beq same
    obtain rfl := plain.filed_unique filed filed'
    cases listed
    rfl
  · exact canonical.truncated other expansion listed target' filed'

/-- A result that there is from some depth on. -/
def Settles {α : Type} (y : ReaderT Nat Option α) (a : α) : Prop :=
  ∃ least, ∀ depth ≥ least, y.run depth = some a

theorem Settles.bind {α β : Type} {y : ReaderT Nat Option α} {g : α → ReaderT Nat Option β} {a : α}
    {b : β} (first : Settles y a) (rest : Settles (g a) b) : Settles (y >>= g) b := by
  obtain ⟨least, here⟩ := first
  obtain ⟨least', there⟩ := rest
  refine ⟨max least least', fun depth deep => ?_⟩
  rw [ReaderT.run_bind, here depth (by omega)]
  exact there depth (by omega)

theorem Settles.unique {α : Type} {y : ReaderT Nat Option α} {a b : α} (one : Settles y a)
    (other : Settles y b) : a = b := by
  obtain ⟨least, found⟩ := one
  obtain ⟨least', found'⟩ := other
  have same := found (max least least') (Nat.le_max_left ..)
  rw [found' (max least least') (Nat.le_max_right ..)] at same
  exact (Option.some.inj same).symm

/-- If the computation has a result, then so has the other one, and what is on the shelf belongs there. -/
def Realizes (job : Job) (α : Type) (x : Inlining α) (y : ReaderT Nat Option α) : Prop :=
  ∀ shelf, job.Canonical shelf → ∀ a after, x.run shelf = (.ok a, after) →
    job.Canonical after ∧ Settles y a

theorem Realizes.keeps (job : Job) : Keeps job.Realizes where
  pure a shelf canonical b after ran := by
    cases ran
    exact ⟨canonical, 0, fun _ _ => rfl⟩
  bind begun rest shelf canonical b after ran := by
    obtain ⟨a, middle, first, second⟩ := run_bind_eq_ok ran
    obtain ⟨still, settles⟩ := begun shelf canonical a middle first
    obtain ⟨still', settles'⟩ := rest a middle still b after second
    exact ⟨still', settles.bind settles'⟩

theorem overlay_run (node : Members Value) (siblings : ReaderT Nat Option (Members Expansion))
    (expansion : Expansion) (depth : Nat) :
    (overlay node siblings expansion).run depth = overlay node (siblings.run depth) expansion := by
  cases expansion with
  | scalar s => rfl
  | list items => rfl
  | object members plain schema =>
      rw [overlay, overlay]
      split <;> rfl

/-- Follows a reference at a depth that is given later. -/
def atDepth (follow : Nat → Follow Option) : Follow (ReaderT Nat Option) :=
  fun scope node reference siblings =>
    ReaderT.mk fun depth => follow depth scope node reference (siblings.run depth)

theorem walk_atDepth (follow : Nat → Follow Option) (scope : Option Scope) (value : Value) :
    walk (atDepth follow) scope value = ReaderT.mk fun depth => walk (follow depth) scope value := by
  refine ReaderT.ext fun depth => ?_
  have keeps : Keeps (m := ReaderT Nat Option) (n := Option) fun _ x y => x.run depth = y := by
    refine ⟨fun _ => rfl, ?_⟩
    rintro α β x _ f g rfl same
    rw [ReaderT.run_bind]
    exact congrArg _ (funext same)
  refine walk_related_eq keeps (fun reference _ scope node x y same => ?_) scope
  rw [← same]
  rfl

noncomputable abbrev followAt (job : Job) (home : Target) : Follow (ReaderT Nat Option) :=
  atDepth (job.followAlone · home)

theorem walk_followAt (scope : Option Scope) (value : Value) :
    walk (job.followAt home) scope value =
      ReaderT.mk fun depth => walk (job.followAlone depth home) scope value :=
  walk_atDepth _ scope value

section FollowAt

variable {scope : Option Scope} {node : Members Value} {reference : String}
  {siblings : ReaderT Nat Option (Members Expansion)}

theorem followAt_run (depth : Nat) : (job.followAt home scope node reference siblings).run depth =
    job.followAlone depth home scope node reference (siblings.run depth) := rfl

theorem followAt_of_link (link : job.link? home reference = some key)
    (leads : job.target? home reference = some target) :
    job.followAt home scope node reference siblings =
      ReaderT.mk (job.instead (scope.getD ⟨[], [], false⟩) key target) >>=
        overlay node siblings := by
  refine ReaderT.ext fun depth => ?_
  rw [ReaderT.run_bind, followAt_run, followAlone_of_link link leads]
  simp only [overlay_run]
  rfl

theorem followAt_of_lost (link : job.link? home reference = none) :
    Settles (job.followAt home scope node reference siblings) (.ofValue (.object node)) := by
  refine ⟨1, fun depth deep => ?_⟩
  obtain ⟨less, rfl⟩ : ∃ less, depth = less + 1 := ⟨depth - 1, by omega⟩
  rw [followAt_run, followAlone_of_lost link]

end FollowAt

/-! A run gives what a target is on its own. -/

/-- Two scopes that differ at most in how their cycles are listed. -/
structure SameScope (first second : Scope) : Prop where
  cycle : ∀ key, key ∈ first.cycle ↔ key ∈ second.cycle
  inlined : first.inlined = second.inlined
  composing : first.composing = second.composing

theorem SameScope.within {first second : Scope} (same : SameScope first second) (name : Scalar) :
    SameScope (first.within name) (second.within name) :=
  ⟨same.cycle, same.inlined, congrArg (· && _) same.composing⟩

theorem Realizes.keep {y : ReaderT Nat Option Expansion} {node : Members Value}
    (settles : Settles y (.ofValue (.object node))) (reference : String) (lookup : Lookup) :
    job.Realizes _ (Inlining.keep node reference lookup) y := by
  intro shelf canonical a after ran
  cases lookup with
  | found key => cases ran; exact ⟨canonical, settles⟩
  | external => cases ran; exact ⟨canonical, settles⟩
  | unloadable => cases ran; exact ⟨canonical.told _, settles⟩
  | dangling message => cases ran; exact ⟨canonical.told _, settles⟩
  | broken problem => cases ran

theorem Realizes.truncate (plain : job.Plain) (filed : job.Filed key target) (reference : String)
    {y : ReaderT Nat Option Expansion}
    (settles : Settles y (.ofValue (Inlining.withoutNested target.value))) :
    job.Realizes _ (Inlining.truncate key reference target) y := by
  intro shelf canonical a after ran
  rw [Inlining.truncate_run] at ran
  split at ran
  · rename_i expansion listed
    cases ran
    rw [canonical.truncated key a listed target filed]
    exact ⟨canonical, settles⟩
  · cases ran
    exact ⟨(canonical.truncate plain filed).told _, settles⟩

theorem Realizes.expandTarget (sound : job.Sound survey) (plain : job.Plain)
    (filed : survey.target? key = some target)
    (walked : job.Realizes _ (walk (Inlining.followIn job.around survey depth target)
      (some ⟨survey.cycleOf key, [key], true⟩) target.value)
      (ReaderT.mk (job.alone · key target))) :
    job.Realizes _ (Inlining.expandTarget survey (Inlining.followIn job.around survey depth) key target)
      (ReaderT.mk (job.alone · key target)) := by
  have met := sound.targets key target filed
  intro shelf canonical expansion after ran
  rw [Inlining.expandTarget_run] at ran
  split at ran
  · rename_i found listed
    cases ran
    obtain ⟨depth, given⟩ := canonical.expanded key expansion listed target met
    exact ⟨canonical, depth, fun more deeper => alone_mono deeper given⟩
  · split at ran
    · rename_i expansion' middle begun
      cases ran
      obtain ⟨still, settles⟩ := walked shelf canonical expansion middle begun
      obtain ⟨least, found⟩ := settles
      exact ⟨still.expand plain met (found least (Nat.le_refl _)), least, found⟩
    · cases ran

theorem Settles.succ {α : Type} {y : Nat → Option α} {a : α}
    (settles : Settles (ReaderT.mk fun depth => y (depth + 1)) a) : Settles (ReaderT.mk y) a := by
  obtain ⟨least, found⟩ := settles
  refine ⟨least + 1, fun depth deep => ?_⟩
  obtain ⟨less, rfl⟩ : ∃ less, depth = less + 1 := ⟨depth - 1, by omega⟩
  exact found less (by omega)

theorem Realizes.succ {x : Inlining Expansion} {y : Nat → Option Expansion}
    (realizes : job.Realizes _ x (ReaderT.mk fun depth => y (depth + 1))) :
    job.Realizes _ x (ReaderT.mk y) :=
  fun shelf canonical a after ran => (realizes shelf canonical a after ran).imp_right .succ

theorem followIn_realizes (sound : job.Sound survey) (plain : job.Plain) (closed : Closed survey)
    {scope scope' : Scope} (known : Known survey home)
    (inside : ∀ reference ∈ referencesOf value, reference ∈ referencesOf home.value)
    (same : SameScope scope scope') :
    job.Realizes _ (walk (Inlining.followIn job.around survey depth home) (some scope) value)
      (walk (job.followAt home) (some scope') value) := by
  -- On the depth of the run; the other side takes whatever depth it needs to settle.
  induction depth generalizing home value scope scope' with
  | zero =>
      refine walk_related (Realizes.keeps job) (fun _ _ _ (_ : True) => trivial) trivial value ?_
      exact fun _ _ _ _ _ _ _ _ _ _ _ _ _ ran => nomatch ran
  | succ depth ih =>
      let scopes (first second : Option Scope) := ∃ one other,
        first = some one ∧ second = some other ∧ SameScope one other
      have together : scopes (some scope) (some scope') := ⟨scope, scope', rfl, rfl, same⟩
      refine walk_related (Realizes.keeps job) ?_ together value ?_
      · rintro _ _ name ⟨one, other, rfl, rfl, same⟩
        exact ⟨_, _, rfl, rfl, same.within name⟩
      · rintro reference member _ _ node siblings siblings' ⟨one, other, rfl, rfl, same⟩ related
        rcases known.find sound plain.keysAgree closed (inside reference member) with
          ⟨link, lost, -⟩ | ⟨key, target, link, found, filed, explored⟩
        · rw [Inlining.followIn_of_lost lost]
          exact .keep (followAt_of_lost link) _ _
        · obtain ⟨place, there, -⟩ := known
          have leads := sound.target?_of_link plain (sound.met there) link filed
          have further {scope scope' : Scope} (same : SameScope scope scope') :
              job.Realizes _ (walk (Inlining.followIn job.around survey depth target) (some scope)
                target.value)
                (ReaderT.mk fun depth => walk (job.followAlone depth target) (some scope')
                  target.value) := by
            rw [← walk_followAt]
            exact ih ⟨key, filed, explored⟩ (fun _ within => within) same
          rw [Inlining.followIn_of_found found filed, followAt_of_link link leads]
          refine (Realizes.keeps job).bind (.succ ?_) fun expansion =>
            (Realizes.keeps job).overlay related expansion
          simp only [instead, inPlace, List.contains_eq_mem, same.cycle, same.inlined, same.composing,
            Option.getD_some]
          -- Expanded in full and shared, inlined within its circle, or cut short.
          split
          · exact .expandTarget sound plain filed (further
              ⟨sound.mem_cycleOf_iff plain closed explored, rfl, rfl⟩)
          · split
            · exact further ⟨same.cycle, rfl, rfl⟩
            · exact .truncate plain (sound.targets key target filed) reference ⟨0, fun _ _ => rfl⟩

theorem target_realizes (sound : job.Sound survey) (plain : job.Plain) (closed : Closed survey)
    (filed : survey.target? key = some target) (explored : Explored survey key) (depth : Nat) :
    job.Realizes _ (walk (Inlining.followIn job.around survey depth target)
      (some ⟨survey.cycleOf key, [key], true⟩) target.value) (ReaderT.mk (job.alone · key target)) := by
  have same : SameScope ⟨survey.cycleOf key, [key], true⟩ ⟨job.circle key, [key], true⟩ :=
    ⟨sound.mem_cycleOf_iff plain closed explored, rfl, rfl⟩
  have walked : job.Realizes _ (walk (Inlining.followIn job.around survey depth target) _ target.value)
      (walk (job.followAt target) _ target.value) :=
    followIn_realizes sound plain closed ⟨key, filed, explored⟩ (fun _ within => within) same
  rw [walk_followAt] at walked
  exact walked

theorem Canonical.stable (plain : job.Plain) : job.Stable job.Canonical where
  expanded survey sound closed key target filed explored depth _ shelf expansion after before still
      ran := by
    obtain ⟨-, least, found⟩ :=
      target_realizes sound plain closed filed explored depth shelf before expansion after ran
    exact still.expand plain (sound.targets key target filed) (found least (Nat.le_refl _))
  truncated survey sound key target filed shelf before :=
    before.truncate plain (sound.targets key target filed)
  told shelf log before := before.told log

/-- So it is with all that is on the shelf at any time. -/
theorem Reached.canonical (plain : job.Plain) {bench : Bench} (reached : job.Reached bench) :
    job.Ready bench ∧ job.Canonical bench.shelf :=
  reached.kept (Canonical.stable plain) plain.keysAgree (Canonical.empty job)

/-! What stands for a key. -/

open Classical in
/-- What every reference to a target gives way to, other than within a circle. -/
noncomputable def full (job : Job) (key : String) : Expansion :=
  if found : ∃ expansion target depth, job.Filed key target ∧
      job.alone depth key target = some expansion then found.choose
  else .scalar .null

open Classical in
/-- What a reference that leads back to a target gives way to. -/
noncomputable def cut (job : Job) (key : String) : Expansion :=
  if found : ∃ target, job.Filed key target then
    .ofValue (Inlining.withoutNested found.choose.value)
  else .scalar .null

theorem full_eq (plain : job.Plain) (filed : job.Filed key target) {expansion : Expansion}
    (given : job.alone depth key target = some expansion) : job.full key = expansion := by
  have found : ∃ expansion target depth, job.Filed key target ∧
      job.alone depth key target = some expansion := ⟨expansion, target, depth, filed, given⟩
  rw [full, dif_pos found]
  obtain ⟨other, bound, filed', given'⟩ := found.choose_spec
  obtain rfl := plain.filed_unique filed filed'
  exact alone_unique given' given

theorem cut_eq (plain : job.Plain) (filed : job.Filed key target) :
    job.cut key = .ofValue (Inlining.withoutNested target.value) := by
  have found : ∃ target, job.Filed key target := ⟨target, filed⟩
  rw [cut, dif_pos found, plain.filed_unique filed found.choose_spec]

section Reached

variable {bench : Bench} (plain : job.Plain) (reached : job.Reached bench)
  (filed : bench.survey.target? key = some target)
include plain reached filed

theorem Reached.expandTarget_eq (explored : Explored bench.survey key) (depth : Nat) :
    (∃ after, (Inlining.expandTarget bench.survey
        (Inlining.followIn job.around bench.survey depth) key target).run bench.shelf =
          (.ok (job.full key), after)) ∨
      depth < bench.survey.targets.length ∧
        Breaks (Inlining.expandTarget bench.survey
          (Inlining.followIn job.around bench.survey depth) key target) bench.shelf := by
  obtain ⟨ready, canonical⟩ := reached.canonical plain
  have realizes := Realizes.expandTarget ready.sound plain filed
    (target_realizes ready.sound plain ready.closed filed explored depth) bench.shelf canonical
  cases ran : (Inlining.expandTarget bench.survey (Inlining.followIn job.around bench.survey depth)
    key target).run bench.shelf with
  | mk result after =>
      rw [ran] at realizes
      cases result with
      | ok expansion =>
          obtain ⟨-, least, found⟩ := realizes expansion after rfl
          rw [full_eq plain (ready.sound.targets key target filed) (found least (Nat.le_refl _))]
          exact .inl ⟨after, rfl⟩
      | error problem =>
          refine .inr ⟨Nat.lt_of_not_le fun enough => ?_, problem, after, ran⟩
          obtain ⟨_, _, ran'⟩ := expandTarget_total ready.sound plain.keysAgree ready.closed explored
            filed enough bench.shelf
          rw [ran] at ran'
          cases ran'

theorem Reached.truncate_eq (reference : String) :
    ∃ after, (Inlining.truncate key reference target).run bench.shelf =
      (.ok (job.cut key), after) := by
  obtain ⟨ready, canonical⟩ := reached.canonical plain
  have met := ready.sound.targets key target filed
  rw [Inlining.truncate_run, cut_eq plain met]
  split
  · rename_i expansion listed
    rw [canonical.truncated key expansion listed target met]
    exact ⟨_, rfl⟩
  · exact ⟨_, rfl⟩

end Reached

end Job

end ApiCompiler.Loading
