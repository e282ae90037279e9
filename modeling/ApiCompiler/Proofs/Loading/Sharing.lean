import ApiCompiler.Proofs.Loading.Inlined
import ApiCompiler.Proofs.Loading.Reached

/-!
Where references lead into no circle, it makes no difference that expansions are shared: each is what
plain inlining gives.
-/

namespace ApiCompiler.Loading

open Openapi Relation

namespace Job

variable {job : Job} {survey : Survey} {home target : Target} {value : Value}

/-! Circles of references. -/

theorem Sound.refers_of_leads (sound : job.Sound survey) (plain : job.Plain) {a b : String}
    {first second : Target} (leads : Leads survey a b) (here : survey.target? a = some first)
    (there : survey.target? b = some second) : job.Refers first second := by
  rw [Leads, Step, Survey.successors] at leads
  cases listed : survey.edges.lookup a with
  | none => rw [listed] at leads; cases leads
  | some links =>
      rw [listed] at leads
      obtain ⟨target, filed, rfl, -⟩ := sound.edges a links listed
      rw [here] at filed
      cases filed
      obtain ⟨reference, inside, link⟩ := mem_linksOf.mp leads
      exact ⟨reference, inside, sound.target?_of_link plain (sound.met here) link there⟩

theorem Sound.refers_of_transGen (sound : job.Sound survey) (plain : job.Plain) {a b : String}
    {first second : Target} (leads : TransGen (Leads survey) a b)
    (here : survey.target? a = some first) (there : survey.target? b = some second) :
    TransGen job.Refers first second := by
  induction leads generalizing second with
  | single step => exact .single (sound.refers_of_leads plain step here there)
  | @tail b c before step ih =>
      obtain ⟨middle, filed⟩ : ∃ middle, survey.target? b = some middle := by
        cases before with
        | single step => exact Option.isSome_iff_exists.mp (sound.successor_filed step)
        | tail _ step => exact Option.isSome_iff_exists.mp (sound.successor_filed step)
      exact (ih filed).tail (sound.refers_of_leads plain step filed there)

def Looped (survey : Survey) (scope : Scope) : Prop :=
  ∀ key ∈ scope.cycle, TransGen (Leads survey) key key

theorem looped_cycleOf {key : String} {scope : Scope}
    (begun : scope.cycle = survey.cycleOf key) : Looped survey scope := by
  intro other inside
  rw [begun] at inside
  obtain ⟨ahead, back⟩ := survey.mem_cycleOf.mp inside
  exact back.trans ahead

/-- A reference that leads into no circle does not lead back. -/
theorem Sound.not_mem_cycle (sound : job.Sound survey) (plain : job.Plain) {scope : Scope}
    (looped : Looped survey scope) {key : String} (filed : survey.target? key = some target)
    (free : ¬TransGen job.Refers target target) : key ∉ scope.cycle :=
  fun inside => free (sound.refers_of_transGen plain (looped key inside) filed filed)

/-! Expansions on the shelf. -/

/-- The expansion of a target that leads into no circle is what plain inlining gives. -/
def Faithful (job : Job) (expanded : List (String × Expansion)) : Prop :=
  ∀ key expansion, expanded.lookup key = some expansion → ∀ target, job.Filed key target →
    job.Acyclic target target.value → ∀ depth plain,
      job.inlined depth target target.value = some plain → expansion = plain

theorem Faithful.cons (plain : job.Plain) {expanded : List (String × Expansion)}
    (faithful : job.Faithful expanded) {key : String} {expansion : Expansion}
    (filed : job.Filed key target)
    (right : job.Acyclic target target.value → ∀ depth plain,
      job.inlined depth target target.value = some plain → expansion = plain) :
    job.Faithful ((key, expansion) :: expanded) := by
  intro other expansion' listed target' filed' acyclic depth inlined same
  rw [List.lookup_cons] at listed
  split at listed
  · rename_i found
    obtain rfl := eq_of_beq found
    obtain rfl := plain.filed_unique filed filed'
    cases listed
    exact right acyclic depth inlined same
  · exact faithful other expansion' listed target' filed' acyclic depth inlined same

/-- Between two states of the shelf no circle was told of, and nothing was cut short. -/
structure Quiet (before after : Shelf) : Prop where
  truncated : after.truncated = before.truncated
  log : ∃ entries : Log, after.log = before.log ++ entries ∧
    ∀ entry ∈ entries, ∀ reference, entry.message ≠ "Circular reference detected: " ++ reference

theorem Quiet.refl (shelf : Shelf) : Quiet shelf shelf :=
  ⟨rfl, #[], by simp, by simp⟩

theorem Quiet.trans {first second third : Shelf} (before : Quiet first second)
    (after : Quiet second third) : Quiet first third := by
  obtain ⟨entries, logged, other⟩ := before.log
  obtain ⟨entries', logged', other'⟩ := after.log
  refine ⟨after.truncated.trans before.truncated, entries ++ entries', ?_, ?_⟩
  · rw [logged', logged, Array.append_assoc]
  · intro entry inside
    exact (Array.mem_append.mp inside).elim (other entry) (other' entry)

theorem ne_circular_of_head {message : String} (start : message.toList.head? = some 'F')
    (reference : String) : message ≠ "Circular reference detected: " ++ reference := by
  rintro rfl
  have first : ("Circular reference detected: ".toList ++ reference.toList).head? = some 'C' := rfl
  rw [String.toList_append, first] at start
  exact absurd start (by decide)

theorem Quiet.warn (shelf : Shelf) {message : String} (start : message.toList.head? = some 'F') :
    Quiet shelf { shelf with log := shelf.log.push ⟨.warning, .loading, message⟩ } := by
  refine ⟨rfl, #[⟨.warning, .loading, message⟩], Array.push_eq_append, ?_⟩
  intro entry inside reference
  rw [Array.mem_singleton.mp inside]
  exact ne_circular_of_head start reference

/--
The computation has the result that plain inlining has, if that has one, without telling of a circle;
else it is cut off, which it is only for want of depth.
-/
def Matches (job : Job) (short : Prop) (α : Type) (x : Inlining α) (y : Option α) : Prop :=
  ∀ a, y = some a → ∀ shelf, job.Faithful shelf.expanded →
    (short ∧ ∃ problem after, x.run shelf = (.error problem, after)) ∨
      ∃ after, x.run shelf = (.ok a, after) ∧ job.Faithful after.expanded ∧ Quiet shelf after

section Matches

variable {short : Prop}

theorem Matches.keeps (job : Job) (short : Prop) : Keeps (job.Matches short) where
  pure a b same shelf before := by
    cases same
    exact .inr ⟨shelf, rfl, before, .refl shelf⟩
  bind first rest b same shelf before := by
    obtain ⟨a, found, found'⟩ := Option.bind_eq_some_iff.mp same
    rw [run_bind]
    rcases first a found shelf before with ⟨cut, problem, after, ran⟩ | ⟨middle, ran, still, quiet⟩
    · rw [ran]
      exact .inl ⟨cut, problem, after, rfl⟩
    · rw [ran]
      rcases rest a b found' middle still with failed | ⟨after, ran', still', quiet'⟩
      · exact .inl failed
      · exact .inr ⟨after, ran', still', quiet.trans quiet'⟩

theorem Matches.mono {α : Type} {x : Inlining α} {y : Option α} (matched : job.Matches short α x y)
    {short' : Prop} (cut : short → short') : job.Matches short' α x y :=
  fun a same shelf before => (matched a same shelf before).imp_left (And.imp_left cut)

theorem Matches.keep (node : Members Value) (reference : String) {lookup : Lookup}
    (whole : ∀ problem, lookup ≠ .broken problem) :
    job.Matches short _ (Inlining.keep node reference lookup) (some (.ofValue (.object node))) := by
  intro a same shelf before
  cases same
  refine .inr ?_
  cases lookup with
  | found key => exact ⟨shelf, rfl, before, .refl shelf⟩
  | external => exact ⟨shelf, rfl, before, .refl shelf⟩
  | unloadable => exact ⟨_, rfl, before, .warn shelf (by simp)⟩
  | dangling message => exact ⟨_, rfl, before, .warn shelf (by simp)⟩
  | broken problem => exact absurd rfl (whole problem)

theorem Matches.expandTarget (sound : job.Sound survey) (plain : job.Plain) {key : String}
    (filed : survey.target? key = some target) (acyclic : job.Acyclic target target.value)
    {depth : Nat}
    (walked : ∀ bound, job.Matches (depth ≤ bound) _ (walk (Inlining.followIn job.around survey depth
      target) (some ⟨survey.cycleOf key, [key], true⟩) target.value)
      (job.inlined bound target target.value)) (bound : Nat) :
    job.Matches (depth ≤ bound) _ (Inlining.expandTarget survey
      (Inlining.followIn job.around survey depth) key target)
      (job.inlined bound target target.value) := by
  intro expansion same shelf before
  rw [Inlining.expandTarget_run]
  split
  · rename_i found listed
    have right := before key found listed target (sound.targets key target filed) acyclic bound
      expansion same
    exact .inr ⟨shelf, by rw [right], before, .refl shelf⟩
  · rcases walked bound expansion same shelf before with
      ⟨short, problem, after, ran⟩ | ⟨middle, ran, still, quiet⟩
    · rw [ran]
      exact .inl ⟨short, problem, after, rfl⟩
    · rw [ran]
      refine .inr ⟨_, rfl, ?_, quiet.truncated, quiet.log⟩
      refine still.cons plain (sound.targets key target filed) fun _ bound' inlined same' => ?_
      rcases walked bound' inlined same' shelf before with
        ⟨-, problem, after, failed⟩ | ⟨after, ran', -, -⟩
      · rw [ran] at failed
        cases failed
      · rw [ran] at ran'
        cases ran'
        rfl

end Matches

/-- A reference that does not lead back is followed as plain inlining does. -/
theorem followIn_matches (sound : job.Sound survey) (plain : job.Plain) (closed : Closed survey)
    {depth : Nat} {scope : Scope} (known : Known survey home)
    (inside : ∀ reference ∈ referencesOf value, reference ∈ referencesOf home.value)
    (acyclic : job.Acyclic home value) (looped : Looped survey scope) (bound : Nat) :
    job.Matches (depth ≤ bound) _
      (walk (Inlining.followIn job.around survey depth home) (some scope) value)
      (job.inlined bound home value) := by
  -- The scope may grow on the way. What carries the induction is that its cycle stays a known one.
  induction depth generalizing home value scope bound with
  | zero =>
      intro expansion same
      refine walk_related (Matches.keeps job _) (fun _ _ _ (_ : True) => trivial) trivial value ?_
        expansion (walk_inlined same none)
      exact fun reference member _ _ _ _ _ _ _ _ _ shelf _ =>
        .inl ⟨Nat.zero_le _, _, shelf, rfl⟩
  | succ depth ih =>
      intro expansion same
      let scopes (first _second : Option Scope) := ∃ here, first = some here ∧ Looped survey here
      have together : scopes (some scope) none := ⟨scope, rfl, looped⟩
      refine walk_related (Matches.keeps job _) ?_ together value ?_ expansion
        (walk_inlined same none)
      · rintro _ _ name ⟨here, rfl, looped⟩
        exact ⟨here.within name, rfl, looped⟩
      · rintro reference member _ _ node siblings siblings' ⟨here, rfl, looped⟩ related
        rcases known.find sound plain.keysAgree closed (inside reference member) with
          ⟨link, lost, whole⟩ | ⟨key, target, link, found, filed, explored⟩
        · have given : job.inlinedTarget home reference bound = none := by
            cases bound <;> rw [inlinedTarget, link?_eq_none link] <;> rfl
          rw [Inlining.followIn_of_lost lost, followGiven, given]
          exact .keep _ _ whole
        · obtain ⟨place, there, -⟩ := known
          have leads := sound.target?_of_link plain (sound.met there) link filed
          have onward := acyclic.leads member leads
          have outside := sound.not_mem_cycle plain looped filed
            (acyclic reference member target leads target .refl)
          rw [Inlining.followIn_of_found found filed, if_pos (by simpa using outside), followGiven]
          cases bound with
          | zero =>
              rw [inlinedTarget, leads]
              exact fun _ absurd => nomatch absurd
          | succ bound =>
              rw [inlinedTarget, leads]
              have expanded := Matches.expandTarget sound plain filed onward
                (fun bound => ih ⟨key, filed, explored⟩ (fun _ within => within) onward
                  (looped_cycleOf rfl) bound) bound
              exact (Matches.keeps job _).bind (expanded.mono Nat.succ_le_succ) fun expansion =>
                (Matches.keeps job _).overlay related expansion

theorem target_matches (sound : job.Sound survey) (plain : job.Plain) (closed : Closed survey)
    {key : String} (filed : survey.target? key = some target) (explored : Explored survey key)
    (acyclic : job.Acyclic target target.value) (depth bound : Nat) :
    job.Matches (depth ≤ bound) _ (walk (Inlining.followIn job.around survey depth target)
      (some ⟨survey.cycleOf key, [key], true⟩) target.value)
      (job.inlined bound target target.value) :=
  followIn_matches sound plain closed ⟨key, filed, explored⟩ (fun _ within => within) acyclic
    (looped_cycleOf rfl) bound

theorem Faithful.stable (plain : job.Plain) :
    job.Stable fun shelf => job.Faithful shelf.expanded where
  expanded survey sound closed key target filed explored depth _ shelf expansion after before still
      ran := by
    refine still.cons plain (sound.targets key target filed) fun acyclic bound inlined same => ?_
    rcases target_matches sound plain closed filed explored acyclic depth bound inlined same shelf
      before with ⟨-, problem, after', failed⟩ | ⟨after', ran', -, -⟩
    · rw [ran] at failed
      cases failed
    · rw [ran] at ran'
      cases ran'
      rfl
  truncated _ _ _ _ _ _ before := before
  told _ _ before := before

theorem Reached.faithful (plain : job.Plain) {bench : Bench} (reached : job.Reached bench) :
    job.Ready bench ∧ job.Faithful bench.shelf.expanded :=
  reached.kept (Faithful.stable plain) plain.keysAgree nofun

theorem Known.enclosed (sound : job.Sound survey) (plain : job.Plain) (closed : Closed survey) :
    job.Enclosed (survey.targets.map Prod.fst) (Known survey) where
  met target known := sound.met known.choose_spec.1
  onward home target known refers := by
    obtain ⟨reference, inside, leads⟩ := refers
    rcases known.find sound plain.keysAgree closed inside with
      ⟨lost, -⟩ | ⟨key, target', link, -, filed, explored⟩
    · rw [link?_eq_none lost] at leads
      cases leads
    · rw [sound.target?_of_link plain (sound.met known.choose_spec.1) link filed] at leads
      cases leads
      exact ⟨key, filed, explored⟩
  keys home known reference inside key link := by
    rcases known.find sound plain.keysAgree closed inside with
      ⟨lost, -⟩ | ⟨key', target, link', -, filed, -⟩
    · rw [lost] at link
      cases link
    · rw [link'] at link
      cases link
      exact mem_targets_of_isSome (Option.isSome_iff_exists.mpr ⟨target, filed⟩)

theorem Bounded.enclosed {all : List String} {most : Nat} (bounded : job.Bounded all most) :
    job.Enclosed all job.Met :=
  ⟨fun _ met => met, fun _ _ => Met.refers, bounded.keys⟩

/-! The document itself. -/

def MatchesRoot (job : Job) (α : Type) (x : Expanding α) (y : Option α) : Prop :=
  ∀ a, y = some a → ∀ bench, job.Ready bench → job.Faithful bench.shelf.expanded →
    (∃ problem after, x.run bench = (.error problem, after)) ∨
      ∃ after, x.run bench = (.ok a, after) ∧ job.Ready after ∧
        job.Faithful after.shelf.expanded ∧ Quiet bench.shelf after.shelf

theorem MatchesRoot.keeps (job : Job) : Keeps job.MatchesRoot where
  pure a b same bench ready before := by
    cases same
    exact .inr ⟨bench, rfl, ready, before, .refl _⟩
  bind first rest b same bench ready before := by
    obtain ⟨a, found, found'⟩ := Option.bind_eq_some_iff.mp same
    rw [run_bind]
    rcases first a found bench ready before with
      ⟨problem, after, ran⟩ | ⟨middle, ran, ready', still, quiet⟩
    · rw [ran]
      exact .inl ⟨problem, after, rfl⟩
    · rw [ran]
      rcases rest a b found' middle ready' still with failed | ⟨after, ran', ready'', still', quiet'⟩
      · exact .inl failed
      · exact .inr ⟨after, ran', ready'', still', quiet.trans quiet'⟩

theorem Matches.root {α : Type} {short : Prop} {x : Inlining α} {y : Option α}
    (matched : job.Matches short α x y) : job.MatchesRoot α (Expanding.ofInlining x) y := by
  intro a same bench ready before
  rw [Expanding.ofInlining_run]
  rcases matched a same bench.shelf before with ⟨-, problem, after, ran⟩ | ⟨after, ran, still, quiet⟩
  · rw [ran]
    exact .inl ⟨problem, _, rfl⟩
  · rw [ran]
    exact .inr ⟨_, rfl, ⟨ready.sound, ready.closed⟩, still, quiet⟩

theorem followRoot_matches (plain : job.Plain) {limit : Nat}
    (inside : ∀ reference ∈ referencesOf value, reference ∈ referencesOf job.document)
    (acyclic : job.Acyclic job.start value) (bound : Nat) :
    job.MatchesRoot _
      (walk (Expanding.followRoot job.around limit job.document job.location) none value)
      (job.inlined bound job.start value) := by
  intro expansion same
  refine walk_related (MatchesRoot.keeps job) (fun _ _ _ (_ : True) => trivial) trivial value ?_
    expansion (walk_inlined same none)
  intro reference member scope _ node siblings siblings' _ related a given bench ready before
  rcases followRoot_cases plain.keysAgree ready (inside reference member) limit scope node siblings
    with ⟨link, -, survey, lookup, whole, ready', ran⟩ | ⟨problem, survey, -, ran⟩ |
      ⟨key, survey, target, link, filed, explored, ready', ran⟩
  · have lost : job.inlinedTarget job.start reference bound = none := by
      cases bound <;> rw [inlinedTarget, link?_eq_none link] <;> rfl
    rw [followGiven, lost] at given
    rw [ran]
    have kept : job.Matches False _ (Inlining.keep node reference lookup) _ :=
      .keep node reference whole
    exact kept.root a given _ ready' before
  · exact .inl ⟨_, _, ran⟩
  · have met : job.Met job.start := .refl
    have leads := ready'.sound.target?_of_link plain met link filed
    have onward := acyclic.leads member leads
    rw [ran]
    cases bound with
    | zero =>
        rw [followGiven, inlinedTarget, leads] at given
        cases given
    | succ bound =>
        rw [followGiven, inlinedTarget, leads] at given
        have expanded := Matches.expandTarget ready'.sound plain filed onward
          (target_matches ready'.sound plain ready'.closed filed explored onward
            (Inlining.greatestDepth survey)) bound
        exact (MatchesRoot.keeps job).bind expanded.root (fun expansion =>
          (MatchesRoot.keeps job).overlay related expansion) a given _ ready' before

/-! Any part of the documents, at any time. -/

/-- A computation gives an expansion without telling of a circle. -/
def Gives {σ : Type} (shelf : σ → Shelf) (x : ExceptT Problem (StateM σ) Expansion) (state : σ)
    (expansion : Expansion) : Prop :=
  ∃ after, x.run state = (.ok expansion, after) ∧ Quiet (shelf state) (shelf after)

/-- A computation has no result. -/
def Breaks {σ : Type} (x : ExceptT Problem (StateM σ) Expansion) (state : σ) : Prop :=
  ∃ problem after, x.run state = (.error problem, after)

/-- A computation has no result because of some problem. -/
def BreaksWith {σ : Type} (fails : Problem → Prop) (x : ExceptT Problem (StateM σ) Expansion)
    (state : σ) : Prop :=
  ∃ problem after, x.run state = (.error problem, after) ∧ fails problem

section Reached

variable {bench : Bench} (plain : job.Plain) (reached : job.Reached bench)
  (acyclic : job.Acyclic home value)
include plain reached acyclic

theorem Reached.followIn_eq_inlined (known : Known bench.survey home)
    (inside : referencesOf value ⊆ referencesOf home.value) {scope : Scope} {key : String}
    (begun : scope.cycle = bench.survey.cycleOf key) :
    ∃ expansion, job.inlined bench.survey.targets.length home value = some expansion ∧ ∀ depth,
      Gives id (walk (Inlining.followIn job.around bench.survey depth home) (some scope) value)
          bench.shelf expansion ∨
        depth ≤ bench.survey.targets.length ∧
          Breaks (walk (Inlining.followIn job.around bench.survey depth home) (some scope) value)
            bench.shelf := by
  obtain ⟨ready, faithful⟩ := reached.faithful plain
  have enclosed := Known.enclosed ready.sound plain ready.closed
  have enough : (bench.survey.targets.map Prod.fst).length ≤
      ([] : List String).length + bench.survey.targets.length := by simp
  obtain ⟨expansion, found⟩ := Option.isSome_iff_exists.mp
    (enclosed.inlined_isSome plain known inside acyclic List.nodup_nil
      (fun _ absurd => nomatch absurd) (fun _ absurd => nomatch absurd) enough)
  refine ⟨expansion, found, fun depth => ?_⟩
  rcases followIn_matches ready.sound plain ready.closed known inside acyclic
    (looped_cycleOf begun) _ expansion found bench.shelf faithful with
    cut | ⟨after, ran, -, quiet⟩
  · exact .inr cut
  · exact .inl ⟨after, ran, quiet⟩

theorem Reached.followRoot_matches_inlined (whole : home = job.start)
    (inside : referencesOf value ⊆ referencesOf job.document) {bound : Nat} {expansion : Expansion}
    (found : job.inlined bound home value = some expansion) {fails : Problem → Prop} {limit : Nat}
    (stops : ∀ reference ∈ referencesOf value, ∀ problem, job.Stops limit reference problem →
      fails problem) :
    Gives Bench.shelf (walk (Expanding.followRoot job.around limit job.document job.location) none
        value) bench expansion ∨
      BreaksWith fails (walk (Expanding.followRoot job.around limit job.document job.location) none
        value) bench := by
  subst whole
  obtain ⟨ready, faithful⟩ := reached.faithful plain
  rcases walk_concludes plain.keysAgree (fun _ member => inside member) stops bench ready with
    ⟨result, after, ran, -⟩ | broken
  · rcases followRoot_matches plain (fun _ member => inside member) acyclic bound expansion found bench
      ready faithful with ⟨problem, after', broken⟩ | ⟨after', ran', -, -, quiet⟩
    · rw [ran] at broken
      cases broken
    · exact .inl ⟨after', ran', quiet⟩
  · exact .inr broken

theorem Reached.followRoot_gives_inlined (finite : job.Finite) (whole : home = job.start)
    (inside : referencesOf value ⊆ referencesOf job.document) :
    ∃ bound expansion, job.inlined bound home value = some expansion ∧ ∃ least, ∀ limit ≥ least,
      Gives Bench.shelf (walk (Expanding.followRoot job.around limit job.document job.location) none
          value) bench expansion ∨
        BreaksWith (job.BrokenIn home value)
          (walk (Expanding.followRoot job.around limit job.document job.location) none value)
          bench := by
  subst whole
  obtain ⟨all, most, bounded⟩ := finite.bounded
  have enough : all.length ≤ ([] : List String).length + all.length := by simp
  obtain ⟨expansion, found⟩ := Option.isSome_iff_exists.mp
    (bounded.enclosed.inlined_isSome plain .refl inside acyclic List.nodup_nil
      (fun _ absurd => nomatch absurd) (fun _ absurd => nomatch absurd) enough)
  refine ⟨all.length, expansion, found, 1 + most * all.length, fun limit enough => ?_⟩
  refine reached.followRoot_matches_inlined plain acyclic rfl inside found fun _ written _ stops => ?_
  exact (stops.brokenIn plain written).resolve_left fun exceeded => exceeded.limit_lt bounded enough

end Reached

end Job

/-- A document in which one target refers to another one. -/
def chainTree : Value :=
  .object [(.text "first", .object [(.text "$ref", .text "#/middle")]),
    (.text "middle", .object [(.text "$ref", .text "#/leaf"), (.text "title", .text "own")]),
    (.text "leaf", .object [(.text "type", .text "string")])]

def chainWork : Work :=
  { loader := { documents := [("/a", chainTree)] }, world := {} }

def chainMiddle : Target :=
  ⟨.object [(.text "$ref", .text "#/leaf"), (.text "title", .text "own")], chainTree, some "/a"⟩

def chainLeaf : Target :=
  ⟨.object [(.text "type", .text "string")], chainTree, some "/a"⟩

def chainSurvey : Survey :=
  { documents := [("/a", chainTree)]
    targets := [("/a#/middle", chainMiddle), ("/a#/leaf", chainLeaf)]
    edges := [("/a#/middle", ["/a#/leaf"]), ("/a#/leaf", [])] }

end ApiCompiler.Loading
