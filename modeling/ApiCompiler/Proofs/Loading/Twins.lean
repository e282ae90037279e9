import ApiCompiler.Proofs.Loading.Reached

/-!
Surveys that differ in nothing but the documents which they remember. As long as what they remember is
so, they go on to differ in nothing else.
-/

namespace ApiCompiler.Loading

open Openapi

variable {around : Surroundings} {survey : Survey} {location : Option String} {reference : String}

/-- The documents that are remembered are those that would be read. -/
def Truthful (around : Surroundings) (documents : List (String × Value)) : Prop :=
  ∀ location value, documents.lookup location = some value → around.content location = .ok value

/-- The document that a reference leads into is remembered if it can be read. -/
def Looked (around : Surroundings) (documents : List (String × Value)) (location : Option String)
    (reference : String) : Prop :=
  ∀ other, addressOf around location (splitReference reference).1 = .other other →
    documents.lookup other = (around.content other).toOption

theorem Truthful.nil (around : Surroundings) : Truthful around [] :=
  nofun

theorem Looked.mono {documents later : List (String × Value)}
    (looked : Looked around documents location reference) (more : documents <+: later)
    (truthful : Truthful around later) : Looked around later location reference := by
  intro other address
  have known := looked other address
  cases content : around.content other with
  | ok value =>
      rw [content] at known
      exact more.lookup_eq_some known
  | error problem =>
      cases present : later.lookup other with
      | none => rfl
      | some value =>
          rw [truthful other value present] at content
          cases content

/-! Looking at a reference. -/

theorem Truthful.append {documents : List (String × Value)} (truthful : Truthful around documents)
    {other : String} {value : Value} (content : around.content other = .ok value) :
    Truthful around (documents ++ [(other, value)]) := by
  intro place found listed
  rcases lookup_concat_eq_some listed with earlier | ⟨rfl, rfl⟩
  · exact truthful place found earlier
  · exact content

theorem withDocument_truthful (truthful : Truthful around survey.documents) (other : String) :
    Truthful around (survey.withDocument around other).documents ∧
      (survey.withDocument around other).documents.lookup other =
        (around.content other).toOption := by
  rw [Survey.withDocument]
  cases present : survey.documents.lookup other with
  | some value =>
      refine ⟨truthful, ?_⟩
      rw [truthful other value present]
      exact present
  | none =>
      cases content : around.content other with
      | error problem => exact ⟨truthful, present⟩
      | ok value =>
          exact ⟨truthful.append content, lookup_concat_self present value⟩

theorem withTarget_documents (survey : Survey) (root : Value) (location : Option String)
    (pointer : String) : (survey.withTarget root location pointer).documents = survey.documents := by
  rw [Survey.withTarget]
  split <;> rfl

theorem enter_extends (survey : Survey) (around : Surroundings) (root : Value)
    (location : Option String) (reference : String) :
    survey.Extends (survey.enter around root location reference) ∧
      (survey.enter around root location reference).edges = survey.edges := by
  rw [Survey.enter_eq]
  split
  · exact ⟨Job.withTarget_extends .., Job.withTarget_edges ..⟩
  · split
    · exact ⟨(Job.withDocument_extends ..).trans (Job.withTarget_extends ..),
        (Job.withTarget_edges ..).trans (Job.withDocument_edges ..)⟩
    · exact ⟨Job.withDocument_extends .., Job.withDocument_edges ..⟩
  · exact ⟨.refl survey, rfl⟩
  · exact ⟨.refl survey, rfl⟩

theorem enter_truthful (truthful : Truthful around survey.documents) (root : Value)
    (location : Option String) (reference : String) :
    Truthful around (survey.enter around root location reference).documents ∧
      Looked around (survey.enter around root location reference).documents location
        reference := by
  rw [Looked, Survey.enter_eq]
  cases address : addressOf around location (splitReference reference).1 with
  | own =>
      dsimp only
      rw [withTarget_documents]
      exact ⟨truthful, nofun⟩
  | disabled => exact ⟨truthful, nofun⟩
  | faulty fault => exact ⟨truthful, nofun⟩
  | other other =>
      obtain ⟨still, found⟩ := withDocument_truthful truthful other
      have same : ∀ place, Address.other other = .other place →
          (survey.withDocument around other).documents.lookup place =
            (around.content place).toOption := by
        rintro _ ⟨⟩
        exact found
      dsimp only
      split
      · rw [withTarget_documents]
        exact ⟨still, same⟩
      · exact ⟨still, same⟩

theorem withTarget_targets {first second : Survey} (same : second.targets = first.targets)
    (root : Value) (location : Option String) (pointer : String) :
    (second.withTarget root location pointer).targets =
      (first.withTarget root location pointer).targets := by
  rw [Survey.withTarget, Survey.withTarget, Survey.target?, Survey.target?, same]
  split
  · rfl
  · exact same

theorem withDocument_targets (survey : Survey) (around : Surroundings) (other : String) :
    (survey.withDocument around other).targets = survey.targets := by
  rw [Survey.withDocument]
  split <;> rfl

theorem enter_targets {first second : Survey} (truthful : Truthful around first.documents)
    (truthful' : Truthful around second.documents) (same : second.targets = first.targets)
    (root : Value) (location : Option String) (reference : String) :
    (second.enter around root location reference).targets =
      (first.enter around root location reference).targets := by
  rw [Survey.enter_eq, Survey.enter_eq]
  cases addressOf around location (splitReference reference).1 with
  | own => exact withTarget_targets same ..
  | disabled => exact same
  | faulty fault => exact same
  | other other =>
      have same' : (second.withDocument around other).targets =
          (first.withDocument around other).targets := by
        rw [withDocument_targets, withDocument_targets, same]
      dsimp only
      rw [(withDocument_truthful truthful other).2, (withDocument_truthful truthful' other).2]
      split
      · exact withTarget_targets same' ..
      · exact same'

/-! Finding what a reference leads to. -/

theorem find_eq_of_looked {first second : Survey} (same : second.targets = first.targets)
    (looked : Looked around first.documents location reference)
    (looked' : Looked around second.documents location reference) :
    second.find around location reference = first.find around location reference := by
  have found (location : Option String) (pointer : String) :
      second.findAt location pointer = first.findAt location pointer := by
    rw [Survey.findAt, Survey.findAt, Survey.target?, Survey.target?, same]
  rw [Survey.find_eq, Survey.find_eq]
  cases address : addressOf around location (splitReference reference).1 with
  | own => exact found ..
  | disabled => rfl
  | faulty fault => rfl
  | other other =>
      dsimp only
      rw [looked other address, looked' other address, found]

theorem filed_of_withTarget {root : Value} {pointer key : String}
    (filed : ((survey.withTarget root location pointer).target? key).isSome) :
    (survey.target? key).isSome ∨ targetKey location pointer = key := by
  rw [Survey.withTarget] at filed
  split at filed
  · obtain ⟨target, filed⟩ := Option.isSome_iff_exists.mp filed
    exact (lookup_concat_eq_some filed).imp (fun old => Option.isSome_iff_exists.mpr ⟨target, old⟩)
      fun new => new.1.symm
  · exact .inl filed

/-- A target that is new after a look at a reference is what the reference leads to. -/
theorem filed_of_enter (truthful : Truthful around survey.documents) {root : Value} {key : String}
    (filed : ((survey.enter around root location reference).target? key).isSome) :
    (survey.target? key).isSome ∨
      (survey.enter around root location reference).find around location reference =
        .found key := by
  have looked := (enter_truthful truthful root location reference).2
  rw [Survey.find_eq]
  rw [Looked] at looked
  rw [Survey.enter_eq] at filed looked ⊢
  cases address : addressOf around location (splitReference reference).1 with
  | own =>
      rw [address] at filed looked
      exact (filed_of_withTarget filed).imp_right fun same => Job.findAt_eq_found.mpr ⟨same, filed⟩
  | disabled =>
      rw [address] at filed
      dsimp only at filed
      exact .inl filed
  | faulty fault =>
      rw [address] at filed
      dsimp only at filed
      exact .inl filed
  | other other =>
      rw [address] at filed looked
      have old : ((survey.withDocument around other).target? key).isSome →
          (survey.target? key).isSome := by
        rw [Survey.target?, withDocument_targets]
        exact id
      dsimp only at filed looked ⊢
      rw [(withDocument_truthful truthful other).2] at filed looked ⊢
      cases content : around.content other with
      | error problem => exact .inl (old (by rwa [content] at filed))
      | ok value =>
          rw [content] at filed looked
          have present := looked other rfl
          rw [content] at present
          dsimp only [Except.toOption] at filed present ⊢
          rw [present]
          exact (filed_of_withTarget filed).imp old fun same => Job.findAt_eq_found.mpr ⟨same, filed⟩

/-! Two surveys side by side. -/

/-- What a survey remembers is so, and it looked at all references of the targets it explored. -/
structure Honest (around : Surroundings) (survey : Survey) : Prop where
  documents : Truthful around survey.documents
  filed : ∀ key, Job.Explored survey key → (survey.target? key).isSome
  looked : ∀ key target, Job.Explored survey key → survey.target? key = some target →
    ∀ reference ∈ referencesOf target.value,
      Looked around survey.documents target.location reference

theorem Honest.initial {documents : List (String × Value)} (truthful : Truthful around documents) :
    Honest around { documents } :=
  ⟨truthful, nofun, nofun⟩

theorem Honest.grow (honest : Honest around survey) {after : Survey} (more : survey.Extends after)
    (truthful : Truthful around after.documents) (same : after.edges = survey.edges) :
    Honest around after := by
  have old {key : String} (explored : Job.Explored after key) : Job.Explored survey key := by
    rwa [Job.Explored, ← same]
  refine ⟨truthful, fun key explored => more.target?_isSome (honest.filed key (old explored)), ?_⟩
  intro key target explored found reference inside
  obtain ⟨earlier, filed⟩ := Option.isSome_iff_exists.mp (honest.filed key (old explored))
  obtain rfl : earlier = target := Option.some.inj ((more.target? filed).symm.trans found)
  exact (honest.looked key earlier (old explored) filed reference inside).mono more.documents
    truthful

/-- Two surveys that may differ only in the documents they remember. -/
structure Twins (around : Surroundings) (first second : Survey) : Prop where
  targets : second.targets = first.targets
  edges : second.edges = first.edges
  first : Honest around first
  second : Honest around second

/-- Every target was explored, or waits to be. -/
def Covered (survey : Survey) (pending : List String) : Prop :=
  ∀ key, (survey.target? key).isSome → Job.Explored survey key ∨ key ∈ pending

section Twins

variable {first second : Survey} (twins : Twins around first second)
include twins

theorem Twins.target? (key : String) : second.target? key = first.target? key := by
  rw [Survey.target?, Survey.target?, twins.targets]

theorem Twins.cycleOf (key : String) : second.cycleOf key = first.cycleOf key := by
  have same : second = { first with documents := second.documents } := by
    rw [← twins.targets, ← twins.edges]
  rw [same]
  rfl

theorem Twins.enter (root : Value) (location : Option String) (reference : String) :
    Twins around (first.enter around root location reference)
      (second.enter around root location reference) := by
  obtain ⟨more, same⟩ := enter_extends first around root location reference
  obtain ⟨more', same'⟩ := enter_extends second around root location reference
  refine ⟨enter_targets twins.first.documents twins.second.documents twins.targets ..,
    (same'.trans twins.edges).trans same.symm, ?_, ?_⟩
  · exact twins.first.grow more (enter_truthful twins.first.documents ..).1 same
  · exact twins.second.grow more' (enter_truthful twins.second.documents ..).1 same'

theorem Twins.find_enter (root : Value) (location : Option String) (reference : String) :
    (second.enter around root location reference).find around location reference =
      (first.enter around root location reference).find around location reference :=
  find_eq_of_looked (twins.enter ..).targets (enter_truthful twins.first.documents ..).2
    (enter_truthful twins.second.documents ..).2

theorem Twins.find {home : Target} (known : Job.Known first home)
    (inside : reference ∈ referencesOf home.value) :
    second.find around home.location reference = first.find around home.location reference := by
  obtain ⟨key, filed, explored⟩ := known
  have explored' : Job.Explored second key := by rwa [Job.Explored, twins.edges]
  exact find_eq_of_looked twins.targets (twins.first.looked key home explored filed _ inside)
    (twins.second.looked key home explored' ((twins.target? key).trans filed) _ inside)

end Twins

/-! One target. -/

theorem Covered.enter (truthful : Truthful around survey.documents) {pending : List String}
    (covered : Covered survey pending) (root : Value) (location : Option String)
    (reference : String) :
    Covered (survey.enter around root location reference)
      (((survey.enter around root location reference).find around location
        reference).key?.toList ++ pending) := by
  intro key filed
  rcases filed_of_enter truthful filed with old | found
  · rw [Job.Explored, (enter_extends survey around root location reference).2]
    exact (covered key old).imp_right (List.mem_append_right _)
  · rw [found]
    exact .inr List.mem_cons_self

theorem lookAll_looked (truthful : Truthful around survey.documents) (home : Target)
    {references : List String} {result : Except Problem (List String)} {after : Survey}
    (ran : (Survey.lookAll around home references).run survey = (result, after)) :
    survey.Extends after ∧ after.edges = survey.edges ∧ Truthful around after.documents ∧
      ∀ links, result = .ok links →
        ∀ reference ∈ references, Looked around after.documents home.location reference := by
  induction references generalizing survey result with
  | nil =>
      cases ran
      exact ⟨.refl _, rfl, truthful, nofun⟩
  | cons reference references ih =>
      obtain ⟨more, same⟩ := enter_extends survey around home.root home.location reference
      obtain ⟨still, here⟩ := enter_truthful truthful home.root home.location reference
      rw [Survey.lookAll_cons_run] at ran
      dsimp only at ran
      split at ran
      · cases ran
        exact ⟨more, same, still, nofun⟩
      · split at ran
        · rename_i links last rest
          cases ran
          obtain ⟨more', same', still', later⟩ := ih still rest
          refine ⟨more.trans more', same'.trans same, still', fun _ _ => ?_⟩
          exact List.forall_mem_cons.mpr ⟨here.mono more'.documents still', later links rfl⟩
        · rename_i problem last rest
          cases ran
          obtain ⟨more', same', still', -⟩ := ih still rest
          exact ⟨more.trans more', same'.trans same, still', nofun⟩

theorem Twins.lookAll {first second : Survey} (truthful : Truthful around first.documents)
    (truthful' : Truthful around second.documents) (same : second.targets = first.targets)
    (home : Target) (references : List String) :
    ((Survey.lookAll around home references).run second).1 =
        ((Survey.lookAll around home references).run first).1 ∧
      ((Survey.lookAll around home references).run second).2.targets =
        ((Survey.lookAll around home references).run first).2.targets := by
  induction references generalizing first second with
  | nil => exact ⟨rfl, same⟩
  | cons reference references ih =>
      obtain ⟨still, looked⟩ := enter_truthful truthful home.root home.location reference
      obtain ⟨still', looked'⟩ := enter_truthful truthful' home.root home.location reference
      have same' := enter_targets truthful truthful' same home.root home.location reference
      obtain ⟨result, targets⟩ := ih still still' same'
      rw [Survey.lookAll_cons_run, Survey.lookAll_cons_run]
      dsimp only
      rw [find_eq_of_looked same' looked looked']
      generalize first.enter around home.root home.location reference = one at *
      generalize second.enter around home.root home.location reference = other at *
      generalize (Survey.lookAll around home references).run one = ran at result targets ⊢
      generalize (Survey.lookAll around home references).run other = ran' at result targets ⊢
      obtain ⟨answer, after⟩ := ran
      obtain ⟨answer', after'⟩ := ran'
      obtain rfl : answer' = answer := result
      split
      · exact ⟨rfl, same'⟩
      · cases answer' <;> exact ⟨rfl, targets⟩

theorem Covered.lookAll (truthful : Truthful around survey.documents) (home : Target)
    {references : List String} {pending links : List String} {after : Survey}
    (ran : (Survey.lookAll around home references).run survey = (.ok links, after))
    (covered : Covered survey pending) : Covered after (links ++ pending) := by
  induction references generalizing survey pending links with
  | nil =>
      cases ran
      exact covered
  | cons reference references ih =>
      obtain ⟨-, same⟩ := enter_extends survey around home.root home.location reference
      rw [Survey.lookAll_cons_run] at ran
      dsimp only at ran
      split at ran
      · cases ran
      · rename_i lookup whole
        split at ran
        · rename_i later last rest
          obtain ⟨collected, rfl⟩ := Prod.mk.inj ran
          obtain rfl := Except.ok.inj collected
          have waiting := ih (enter_truthful truthful ..).1 rest
            (covered.enter truthful home.root home.location reference)
          refine fun key filed => (waiting key filed).imp_right fun waits => ?_
          simp only [List.mem_append] at waits ⊢
          rcases waits with waits | waits | waits
          · exact .inl (.inr waits)
          · exact .inl (.inl waits)
          · exact .inr waits
        · cases ran

theorem explored_append {edges : List (String × List String)} {key other : String}
    {links : List String} :
    ((edges ++ [(key, links)]).lookup other).isSome ↔ (edges.lookup other).isSome ∨ other = key := by
  rw [List.lookup_append, Option.isSome_or, Bool.or_eq_true, List.lookup_cons]
  refine or_congr_right ?_
  cases same : other == key with
  | true => simpa using same
  | false => simpa using same

theorem Honest.exploreTarget (honest : Honest around survey) {key : String} {target : Target}
    (filed : survey.target? key = some target) {result : Except Problem (List String)}
    {after : Survey}
    (ran : (Survey.exploreTarget around key target).run survey = (result, after)) :
    Honest around after ∧ after.edges = survey.edges ++ (result.toOption.map (key, ·)).toList := by
  rw [Survey.exploreTarget_run] at ran
  split at ran
  · rename_i links middle looked
    cases ran
    obtain ⟨more, same, truthful, here⟩ := lookAll_looked honest.documents target looked
    have grown := honest.grow more truthful same
    refine ⟨⟨truthful, ?_, ?_⟩, congrArg (· ++ _) same⟩
    · intro other explored
      rcases explored_append.mp explored with old | rfl
      · exact grown.filed other old
      · exact more.target?_isSome (Option.isSome_iff_exists.mpr ⟨target, filed⟩)
    · intro other target' explored found reference inside
      rcases explored_append.mp explored with old | rfl
      · exact grown.looked other target' old found reference inside
      · obtain rfl : target = target' := Option.some.inj ((more.target? filed).symm.trans found)
        exact here links rfl reference inside
  · rename_i problem middle looked
    cases ran
    obtain ⟨more, same, truthful, -⟩ := lookAll_looked honest.documents target looked
    exact ⟨honest.grow more truthful same, same.trans (List.append_nil _).symm⟩

theorem Covered.exploreTarget (truthful : Truthful around survey.documents) {key : String}
    {target : Target} {pending links : List String} {after : Survey}
    (ran : (Survey.exploreTarget around key target).run survey = (.ok links, after))
    (covered : Covered survey (key :: pending)) : Covered after (links ++ pending) := by
  rw [Survey.exploreTarget_run] at ran
  split at ran
  · rename_i links middle looked
    cases ran
    intro other filed
    rcases covered.lookAll truthful target looked other filed with explored | waits
    · exact .inl (explored_append.mpr (.inl explored))
    · rcases List.mem_append.mp waits with link | waits
      · exact .inr (List.mem_append_left _ link)
      · rcases List.mem_cons.mp waits with here | later
        · exact .inl (explored_append.mpr (.inr here))
        · exact .inr (List.mem_append_right _ later)
  · cases ran

/-- The same comes of a computation, and the two surveys differ in nothing else afterwards either. -/
def Twins.Agree {α : Type} (around : Surroundings) (x : Surveying α) (first second : Survey) : Prop :=
  ∃ result after after', x.run first = (result, after) ∧ x.run second = (result, after') ∧
    Twins around after after'

theorem Twins.exploreTarget {first second : Survey} (twins : Twins around first second)
    {key : String} {target : Target} (filed : first.target? key = some target) :
    Twins.Agree around (Survey.exploreTarget around key target) first second := by
  obtain ⟨looked, targets⟩ := Twins.lookAll twins.first.documents twins.second.documents
    twins.targets target (referencesOf target.value)
  have same : ((Survey.exploreTarget around key target).run second).1 =
        ((Survey.exploreTarget around key target).run first).1 ∧
      ((Survey.exploreTarget around key target).run second).2.targets =
        ((Survey.exploreTarget around key target).run first).2.targets := by
    rw [Survey.exploreTarget_run, Survey.exploreTarget_run]
    generalize (Survey.lookAll around target (referencesOf target.value)).run first = ran at *
    generalize (Survey.lookAll around target (referencesOf target.value)).run second = ran' at *
    obtain ⟨answer, after⟩ := ran
    obtain ⟨answer', after'⟩ := ran'
    obtain rfl : answer' = answer := looked
    cases answer' <;> exact ⟨rfl, targets⟩
  rcases ran : (Survey.exploreTarget around key target).run first with ⟨answer, after⟩
  rcases ran' : (Survey.exploreTarget around key target).run second with ⟨answer', after'⟩
  rw [ran, ran'] at same
  obtain ⟨answered, targets⟩ := same
  obtain rfl : answer' = answer := answered
  obtain ⟨honest, edges⟩ := twins.first.exploreTarget filed ran
  obtain ⟨honest', edges'⟩ := twins.second.exploreTarget ((twins.target? key).trans filed) ran'
  exact ⟨answer', after, after', ran, ran', targets, by rw [edges, edges', twins.edges], honest,
    honest'⟩

/-! Everything a target leads to. -/

theorem Twins.explore {first second : Survey} (twins : Twins around first second) (limit : Nat)
    {pending : List String} (covered : Covered first pending) :
    ∃ result after after', (Survey.explore around limit pending).run first = (result, after) ∧
      (Survey.explore around limit pending).run second = (result, after') ∧
      Twins around after after' ∧ (result = .ok () → Covered after []) := by
  induction limit generalizing first second pending with
  | zero =>
      cases pending with
      | nil => exact ⟨.ok (), first, second, rfl, rfl, twins, fun _ => covered⟩
      | cons key pending => exact ⟨_, first, second, rfl, rfl, twins, nofun⟩
  | succ limit ih =>
      cases pending with
      | nil => exact ⟨.ok (), first, second, rfl, rfl, twins, fun _ => covered⟩
      | cons key pending =>
          -- What is taken from the pending without being explored now was explored before, or is none.
          have skipped : Job.Explored first key ∨ first.target? key = none →
              Covered first pending := by
            intro done other filed
            rcases covered other filed with explored | waits
            · exact .inl explored
            · rcases List.mem_cons.mp waits with rfl | later
              · rcases done with explored | absent
                · exact .inl explored
                · rw [absent] at filed
                  cases filed
              · exact .inr later
          rw [Survey.explore_cons_run, Survey.explore_cons_run, twins.edges, twins.target?]
          cases listed : first.edges.lookup key with
          | some links =>
              exact ih twins (skipped (.inl (Option.isSome_iff_exists.mpr ⟨links, listed⟩)))
          | none =>
              cases filed : first.target? key with
              | none => exact ih twins (skipped (.inr filed))
              | some target =>
                  obtain ⟨result, after, after', ran, ran', further⟩ := twins.exploreTarget filed
                  dsimp only
                  rw [ran, ran']
                  cases result with
                  | ok links => exact ih further (covered.exploreTarget twins.first.documents ran)
                  | error problem => exact ⟨_, after, after', rfl, rfl, further, nofun⟩

/-! Expanding. -/

theorem Covered.known (covered : Covered survey []) {key : String} {target : Target}
    (filed : survey.target? key = some target) : Job.Known survey target :=
  ⟨key, filed, (covered key (Option.isSome_iff_exists.mpr ⟨target, filed⟩)).resolve_right
    List.not_mem_nil⟩

section Covered

variable {first second : Survey} (twins : Twins around first second) (covered : Covered first [])
include twins covered

theorem Twins.walk_followIn {depth : Nat} {home : Target} {value : Value} {scope : Scope}
    (known : Job.Known first home)
    (inside : ∀ reference ∈ referencesOf value, reference ∈ referencesOf home.value) :
    walk (Inlining.followIn around second depth home) (some scope) value =
      walk (Inlining.followIn around first depth home) (some scope) value := by
  induction depth generalizing home value scope with
  | zero => rfl
  | succ depth ih =>
      have keeps : Keeps (m := Inlining) (n := Inlining) fun _ x y => x = y :=
        ⟨fun _ => rfl, fun same same' => by rw [same, funext same']⟩
      let scopes (one other : Option Scope) := one = other ∧ one.isSome
      have together : scopes (some scope) (some scope) := ⟨rfl, rfl⟩
      refine walk_related keeps ?_ together value ?_
      · rintro one _ name ⟨rfl, given⟩
        exact ⟨rfl, by rwa [Option.isSome_map]⟩
      · rintro reference member one _ node siblings _ ⟨rfl, given⟩ rfl
        obtain ⟨scope, rfl⟩ := Option.isSome_iff_exists.mp given
        have same := twins.find known (inside reference member)
        by_cases lost : ∀ key, first.find around home.location reference ≠ .found key
        · rw [Inlining.followIn_of_lost lost, Inlining.followIn_of_lost (same ▸ lost), same]
        push Not at lost
        obtain ⟨key, found⟩ := lost
        cases filed : first.target? key with
        | none =>
            rw [Inlining.followIn_of_unfiled (same.trans found) ((twins.target? key).trans filed),
              Inlining.followIn_of_unfiled found filed]
        | some target =>
            have walked (scope : Scope) :
                walk (Inlining.followIn around second depth target) (some scope) target.value =
                  walk (Inlining.followIn around first depth target) (some scope) target.value :=
              ih (covered.known filed) fun _ within => within
            rw [Inlining.followIn_of_found (same.trans found) ((twins.target? key).trans filed),
              Inlining.followIn_of_found found filed, Inlining.expandTarget, Inlining.expandTarget,
              twins.cycleOf]
            simp only [walked]

theorem Twins.expand {key : String} {target : Target} (filed : first.target? key = some target) :
    Inlining.expand around second key target = Inlining.expand around first key target := by
  have walked (depth : Nat) (scope : Scope) :
      walk (Inlining.followIn around second depth target) (some scope) target.value =
        walk (Inlining.followIn around first depth target) (some scope) target.value :=
    twins.walk_followIn covered (covered.known filed) fun _ within => within
  rw [Inlining.expand, Inlining.expand, Inlining.expandTarget, Inlining.expandTarget, twins.cycleOf,
    Inlining.greatestDepth, twins.targets, ← Inlining.greatestDepth]
  simp only [walked]

end Covered

/-! The document itself. -/

/-- Two benches that may differ only in the documents remembered, with nothing left to explore. -/
structure Level (around : Surroundings) (first second : Bench) : Prop where
  twins : Twins around first.survey second.survey
  covered : Covered first.survey []
  shelf : second.shelf = first.shelf

/--
What a computation gives and puts on the shelf is the same whichever documents are remembered, and
what it remembers of others is so.
-/
def Blind (around : Surroundings) (α : Type) (x : Expanding α) : Prop :=
  ∀ first second, Level around first second → ∃ result after after',
    x.run first = (result, after) ∧ x.run second = (result, after') ∧ after'.shelf = after.shelf ∧
      Truthful around after.survey.documents ∧ Truthful around after'.survey.documents ∧
        ∀ a, result = .ok a → Level around after after'

theorem Level.truthful {first second : Bench} (level : Level around first second) :
    Truthful around first.survey.documents ∧ Truthful around second.survey.documents :=
  ⟨level.twins.first.documents, level.twins.second.documents⟩

theorem Blind.bind {α β : Type} {x : Expanding α} {f : α → Expanding β} (begun : Blind around α x)
    (rest : ∀ a, Blind around β (f a)) : Blind around β (x >>= f) := by
  intro first second level
  obtain ⟨result, after, after', ran, ran', same, truthful, truthful', further⟩ :=
    begun first second level
  rw [run_bind, run_bind, ran, ran']
  cases result with
  | error problem => exact ⟨_, after, after', rfl, rfl, same, truthful, truthful', nofun⟩
  | ok a => exact rest a after after' (further a rfl)

theorem Blind.keeps (around : Surroundings) : Keeps (n := Id) fun α x _ => Blind around α x where
  pure a first second level :=
    ⟨.ok a, first, second, rfl, rfl, level.shelf, level.truthful.1, level.truthful.2,
      fun _ _ => level⟩
  bind begun rest := begun.bind rest

theorem Blind.ofInlining {α : Type} (x : Inlining α) :
    Blind around α (Expanding.ofInlining x) := by
  intro first second level
  rw [Expanding.ofInlining_run, Expanding.ofInlining_run, level.shelf]
  exact ⟨_, _, _, rfl, rfl, rfl, level.truthful.1, level.truthful.2,
    fun _ _ => ⟨level.twins, level.covered, rfl⟩⟩

theorem Blind.followRoot (limit : Nat) (root : Value) (location : Option String)
    (scope : Option Scope) (node : Members Value) (reference : String)
    {siblings : Expanding (Members Expansion)} (blind : Blind around _ siblings) :
    Blind around _ (Expanding.followRoot around limit root location scope node reference
      siblings) := by
  intro first second level
  have entered := level.twins.enter root location reference
  have covered := level.covered.enter level.truthful.1 root location reference
  rw [List.append_nil] at covered
  rw [Expanding.followRoot_run, Expanding.followRoot_run]
  dsimp only
  rw [level.twins.find_enter root location reference]
  generalize first.survey.enter around root location reference = one at entered covered ⊢
  generalize second.survey.enter around root location reference = other at entered ⊢
  split
  · rename_i key leads
    rw [leads] at covered
    obtain ⟨result, after, after', ran, ran', twins, covered⟩ := entered.explore limit covered
    dsimp only [Lookup.key?, Option.toList] at ran ran'
    rw [ran, ran']
    cases result with
    | error problem =>
        exact ⟨_, _, _, rfl, rfl, level.shelf, twins.first.documents, twins.second.documents, nofun⟩
    | ok u =>
        have covered := covered rfl
        have still : Level around { first with survey := after } { second with survey := after' } :=
          ⟨twins, covered, level.shelf⟩
        dsimp only
        rw [twins.target?]
        cases filed : after.target? key with
        | none =>
            exact ⟨_, _, _, rfl, rfl, level.shelf, twins.first.documents, twins.second.documents,
              fun _ _ => still⟩
        | some target =>
            dsimp only
            rw [twins.expand covered filed]
            exact Blind.bind (.ofInlining _) (fun expansion =>
              (Blind.keeps around).overlay (y := ([] : Members Expansion)) blind expansion) _ _ still
  · rename_i lost
    refine Blind.ofInlining (Inlining.keep node reference _)
      { first with survey := one } { second with survey := other } ⟨entered, ?_, level.shelf⟩
    have nothing : (one.find around location reference).key? = none :=
      Option.eq_none_iff_forall_ne_some.mpr fun key leads => lost key (Lookup.key?_eq_some.mp leads)
    rwa [nothing] at covered

/-- A document is expanded in the same way whichever documents are remembered. -/
theorem Blind.document (limit : Nat) (root : Value) (location : Option String) :
    Blind around _ (Expanding.document around limit root location) :=
  walk_holds (Blind.keeps around) (fun _ _ (_ : True) => trivial)
    (fun reference _ scope node _ _ blind =>
      Blind.followRoot limit root location scope node reference blind) trivial

end ApiCompiler.Loading
