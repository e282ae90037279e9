import Mathlib.Data.List.Perm.Subperm
import ApiCompiler.Proofs.Loading.Cycle
import ApiCompiler.Proofs.Loading.Exploration
import ApiCompiler.Proofs.Loading.Filing
import ApiCompiler.Proofs.Loading.Follow
import ApiCompiler.Proofs.Loading.Walk

/-!
Dereferencing comes to an end: with a result, unless following a reference breaks down.
-/

namespace ApiCompiler.Loading

open Openapi Relation

namespace Job

variable {job : Job} {survey : Survey} {home : Target}

/-! Targets that refer to others. -/

/-- An explored target refers to another one. -/
abbrev Leads (survey : Survey) : String → String → Prop :=
  Step survey.successors

theorem Explored.successors (sound : job.Sound survey) {key : String} {target : Target}
    (explored : Explored survey key) (found : survey.target? key = some target) :
    survey.successors key = job.links target ∧
      ∀ reference ∈ referencesOf target.value, job.Entered survey target reference := by
  obtain ⟨links, listed⟩ := Option.isSome_iff_exists.mp explored
  obtain ⟨other, filed, same, entered⟩ := sound.edges key links listed
  rw [found] at filed
  cases filed
  rw [Survey.successors, listed]
  exact ⟨same, entered⟩

theorem Explored.links_explored (sound : job.Sound survey) (closed : Closed survey) {key : String}
    {target : Target} (explored : Explored survey key) (found : survey.target? key = some target) :
    ∀ link ∈ job.links target, Explored survey link := by
  intro link leads
  obtain ⟨links, listed⟩ := Option.isSome_iff_exists.mp explored
  rw [← (explored.successors sound found).1, Survey.successors, listed] at leads
  exact (closed key links listed link leads).resolve_right List.not_mem_nil

theorem Sound.successor_filed (sound : job.Sound survey) {a b : String} (leads : Leads survey a b) :
    (survey.target? b).isSome := by
  rw [Leads, Step, Survey.successors] at leads
  cases listed : survey.edges.lookup a with
  | none => rw [listed] at leads; cases leads
  | some links =>
      obtain ⟨target, -, rfl, entered⟩ := sound.edges a links listed
      rw [listed] at leads
      exact links_filed entered leads

theorem mem_targets_of_isSome {key : String} (filed : (survey.target? key).isSome) :
    key ∈ survey.targets.map Prod.fst := by
  rw [Survey.target?, List.lookup_isSome_iff] at filed
  obtain ⟨pair, member, same⟩ := filed
  exact List.mem_map.mpr ⟨pair, member, (beq_iff_eq.mp same).symm⟩

/-! Chains of references that are followed inside each other. -/

/-- What is known along a chain: a target of it that could come again is cut short before it does. -/
structure OnChain (survey : Survey) (chain : List String) (scope : Scope) (links : List String) :
    Prop where
  distinct : chain.Nodup
  filed : ∀ key ∈ chain, (survey.target? key).isSome
  above : ∀ key ∈ chain, ∀ link ∈ links, TransGen (Leads survey) key link
  closed : ∀ key ∈ scope.cycle, ∀ other, TransGen (Leads survey) key other →
    TransGen (Leads survey) other key → other ∈ scope.cycle
  back : ∀ key ∈ chain, ∀ link ∈ links, ReflTransGen (Leads survey) link key →
    key ∈ scope.cycle ∧ key ∈ scope.inlined

namespace OnChain

variable {chain links : List String} {scope : Scope}

theorem length_le (onChain : OnChain survey chain scope links) :
    chain.length ≤ survey.targets.length := by
  have inside : chain ⊆ survey.targets.map Prod.fst := fun key member =>
    mem_targets_of_isSome (onChain.filed key member)
  simpa using (onChain.distinct.subperm inside).length_le

theorem within (onChain : OnChain survey chain scope links) (name : Scalar) :
    OnChain survey chain (scope.within name) links :=
  ⟨onChain.distinct, onChain.filed, onChain.above, onChain.closed, onChain.back⟩

variable (onChain : OnChain survey chain scope links) {link : String} (next : link ∈ links)
include onChain next

theorem above_next {key : String} (inside : key ∈ link :: chain) {other : String}
    (leads : other ∈ survey.successors link) : TransGen (Leads survey) key other := by
  rcases List.mem_cons.mp inside with rfl | earlier
  · exact TransGen.single leads
  · exact (onChain.above key earlier link next).tail leads

/-- A target outside the cycle is expanded on its own. -/
theorem expand (filed : (survey.target? link).isSome) (outside : link ∉ scope.cycle) :
    OnChain survey (link :: chain) ⟨survey.cycleOf link, [link], true⟩
      (survey.successors link) := by
  refine ⟨List.nodup_cons.mpr ⟨fun again => ?_, onChain.distinct⟩, ?_, ?_, ?_, ?_⟩
  · exact outside (onChain.back link again link next .refl).1
  · exact List.forall_mem_cons.mpr ⟨filed, onChain.filed⟩
  · exact fun key inside other leads => onChain.above_next next inside leads
  · intro key inside other there back
    obtain ⟨ahead, behind⟩ := survey.mem_cycleOf.mp inside
    exact survey.mem_cycleOf.mpr ⟨ahead.trans there, back.trans behind⟩
  · intro key inside other leads onward
    -- An earlier target that this leads back to would put this one on the cycle it is outside of.
    have reached : TransGen (Leads survey) link key := TransGen.head' leads onward
    rcases List.mem_cons.mp inside with rfl | earlier
    · exact ⟨survey.mem_cycleOf.mpr ⟨reached, reached⟩, List.mem_singleton.mpr rfl⟩
    · have onCycle := (onChain.back key earlier link next reached.to_reflTransGen).1
      exact absurd (onChain.closed key onCycle link (onChain.above key earlier link next) reached)
        outside

/-- A target of the cycle that is not on the chain yet is inlined. -/
theorem inline (filed : (survey.target? link).isSome) (inside : link ∈ scope.cycle)
    (new : link ∉ scope.inlined) :
    OnChain survey (link :: chain) { scope with inlined := link :: scope.inlined }
      (survey.successors link) := by
  refine ⟨List.nodup_cons.mpr ⟨fun again => ?_, onChain.distinct⟩, ?_, ?_, onChain.closed, ?_⟩
  · exact new (onChain.back link again link next .refl).2
  · exact List.forall_mem_cons.mpr ⟨filed, onChain.filed⟩
  · exact fun key inside other leads => onChain.above_next next inside leads
  · intro key member other leads onward
    rcases List.mem_cons.mp member with rfl | earlier
    · exact ⟨inside, List.mem_cons_self⟩
    · obtain ⟨onCycle, seen⟩ := onChain.back key earlier link next (ReflTransGen.head leads onward)
      exact ⟨onCycle, List.mem_cons_of_mem _ seen⟩

end OnChain

/-! Computations that always have a result. -/

/-- A result, whatever is on the shelf. -/
def Total (α : Type) (x : Inlining α) : Prop :=
  ∀ shelf, ∃ a after, x.run shelf = (.ok a, after)

theorem Total.pure {α : Type} (a : α) : Total α (Pure.pure a) :=
  fun shelf => ⟨a, shelf, rfl⟩

theorem Total.bind {α β : Type} {x : Inlining α} {f : α → Inlining β} (first : Total α x)
    (rest : ∀ a, Total β (f a)) : Total β (x >>= f) := by
  intro shelf
  obtain ⟨a, middle, ran⟩ := first shelf
  obtain ⟨b, after, ran'⟩ := rest a middle
  refine ⟨b, after, ?_⟩
  rw [run_bind, ran]
  exact ran'

theorem Total.keeps : Keeps (n := Id) fun α x _ => Total α x :=
  ⟨.pure, fun first rest => .bind first rest⟩

theorem Total.overlay {siblings : Inlining (Members Expansion)} (total : Total _ siblings)
    (node : Members Value) (expansion : Expansion) : Total _ (overlay node siblings expansion) :=
  Total.keeps.overlay (y := ([] : Members Expansion)) total expansion

theorem Total.keep (node : Members Value) (reference : String) {lookup : Lookup}
    (whole : ∀ problem, lookup ≠ .broken problem) :
    Total _ (Inlining.keep node reference lookup) := by
  cases lookup with
  | broken problem => exact absurd rfl (whole problem)
  | _ => exact fun shelf => ⟨_, _, rfl⟩

theorem Total.truncate (key reference : String) (target : Target) :
    Total _ (Inlining.truncate key reference target) := by
  intro shelf
  rw [Inlining.truncate_run]
  split
  · exact ⟨_, _, rfl⟩
  · exact ⟨_, _, rfl⟩

theorem Total.expandTarget {follow : Target → Follow Inlining} {key : String} {target : Target}
    (walked : Total _ (walk (follow target) (some ⟨survey.cycleOf key, [key], true⟩) target.value)) :
    Total _ (Inlining.expandTarget survey follow key target) := by
  intro shelf
  rw [Inlining.expandTarget_run]
  split
  · exact ⟨_, _, rfl⟩
  · obtain ⟨expansion, after, ran⟩ := walked shelf
    rw [ran]
    exact ⟨_, _, rfl⟩

theorem followIn_total (sound : job.Sound survey) (agree : job.KeysAgree) (closed : Closed survey)
    {depth : Nat} {chain : List String} {value : Value} {scope : Scope} (met : job.Met home)
    (inside : ∀ reference ∈ referencesOf value, reference ∈ referencesOf home.value)
    (entered : ∀ reference ∈ referencesOf value, job.Entered survey home reference)
    (explored : ∀ link ∈ job.linksOf home (referencesOf value), Explored survey link)
    (onChain : OnChain survey chain scope (job.linksOf home (referencesOf value)))
    (enough : survey.targets.length < chain.length + depth) :
    Total _ (walk (Inlining.followIn job.around survey depth home) (some scope) value) := by
  -- Every step down makes the chain longer, and no chain is longer than there are targets.
  induction depth generalizing chain home value scope with
  | zero => exact absurd onChain.length_le (Nat.not_le_of_lt enough)
  | succ depth ih =>
      let inScope (other : Option Scope) := ∃ here, other = some here ∧
        OnChain survey chain here (job.linksOf home (referencesOf value))
      have here : inScope (some scope) := ⟨scope, rfl, onChain⟩
      refine walk_holds Total.keeps ?_ ?_ here
      · rintro _ name ⟨here, rfl, onChain⟩
        exact ⟨here.within name, rfl, onChain.within name⟩
      · rintro reference member _ node siblings ⟨here, rfl, onChain⟩ total
        by_cases lost : ∀ key, survey.find job.around home.location reference ≠ .found key
        · rw [Inlining.followIn_of_lost lost]
          exact .keep _ _ ((entered reference member).find_ne_broken sound)
        push Not at lost
        obtain ⟨link, found⟩ := lost
        have leads := (sound.find_iff agree met (inside reference member)
          (entered reference member) link).mp found
        have next : link ∈ job.linksOf home (referencesOf value) :=
          mem_linksOf.mpr ⟨reference, member, leads⟩
        have filed := (entered reference member).target link leads
        obtain ⟨target, known⟩ := Option.isSome_iff_exists.mp filed
        have knows := explored link next
        obtain ⟨successors, entered'⟩ := knows.successors sound known
        have further (scope : Scope)
            (onChain : OnChain survey (link :: chain) scope (survey.successors link)) :
            Total _ (walk (Inlining.followIn job.around survey depth target) (some scope)
              target.value) := by
          rw [successors] at onChain
          refine ih (sound.met known) (fun _ member => member) entered'
            (knows.links_explored sound closed known) onChain ?_
          rw [List.length_cons]
          omega
        rw [Inlining.followIn_of_found found known]
        refine .bind ?_ fun expansion => total.overlay node expansion
        split
        · rename_i outside
          exact .expandTarget (further _ (onChain.expand next filed (by simpa using outside)))
        · rename_i onCycle
          split
          · rename_i new
            rw [Bool.and_eq_true] at new
            exact further _
              (onChain.inline next filed (by simpa using onCycle) (by simpa using new.2))
          · exact .truncate _ _ _

theorem OnChain.start {key : String} (filed : (survey.target? key).isSome) :
    OnChain survey [key] ⟨survey.cycleOf key, [key], true⟩ (survey.successors key) := by
  refine ⟨by simp, ?_, ?_, ?_, ?_⟩
  · intro other inside
    rwa [List.mem_singleton.mp inside]
  · intro other inside link leads
    rw [List.mem_singleton.mp inside]
    exact TransGen.single leads
  · intro other inside third there back
    obtain ⟨ahead, behind⟩ := survey.mem_cycleOf.mp inside
    exact survey.mem_cycleOf.mpr ⟨ahead.trans there, back.trans behind⟩
  · intro other inside link leads onward
    obtain rfl := List.mem_singleton.mp inside
    have around := TransGen.head' leads onward
    exact ⟨survey.mem_cycleOf.mpr ⟨around, around⟩, inside⟩

theorem expandTarget_total (sound : job.Sound survey) (agree : job.KeysAgree)
    (closed : Closed survey) {key : String} {target : Target} (explored : Explored survey key)
    (found : survey.target? key = some target) {depth : Nat}
    (enough : survey.targets.length ≤ depth) :
    Total _ (Inlining.expandTarget survey (Inlining.followIn job.around survey depth) key target) := by
  obtain ⟨successors, entered⟩ := explored.successors sound found
  have filed : (survey.target? key).isSome := Option.isSome_iff_exists.mpr ⟨target, found⟩
  have chain := OnChain.start filed
  rw [successors] at chain
  refine .expandTarget (followIn_total sound agree closed (sound.met found) (fun _ member => member)
    entered (explored.links_explored sound closed found) chain ?_)
  rw [List.length_singleton]
  omega

theorem expand_total (sound : job.Sound survey) (agree : job.KeysAgree) (closed : Closed survey)
    {key : String} {target : Target} (explored : Explored survey key)
    (found : survey.target? key = some target) :
    Total _ (Inlining.expand job.around survey key target) :=
  expandTarget_total sound agree closed explored found (Nat.le_mul_self survey.targets.length)

/-! The document itself. -/

/-- What is known between two references of the document. -/
structure Ready (job : Job) (bench : Bench) : Prop where
  sound : job.Sound bench.survey
  closed : Closed bench.survey

theorem Ready.of_survey (sound : job.Sound survey) (closed : Closed survey) (shelf : Shelf) :
    job.Ready ⟨survey, shelf⟩ :=
  ⟨sound, closed⟩

theorem Ready.initial (job : Job) : job.Ready { survey := { documents := job.known } } :=
  .of_survey (.initial job) nofun _

/-- A result, and the same is known afterwards; or a failure of some kinds. -/
def Concludes (job : Job) (fails : Problem → Prop) (α : Type) (x : Expanding α) : Prop :=
  ∀ bench, job.Ready bench →
    (∃ a after, x.run bench = (.ok a, after) ∧ job.Ready after) ∨
      ∃ problem after, x.run bench = (.error problem, after) ∧ fails problem

section Concludes

variable {fails : Problem → Prop}

theorem Concludes.bind {α β : Type} {x : Expanding α} {f : α → Expanding β}
    (first : job.Concludes fails α x) (rest : ∀ a, job.Concludes fails β (f a)) :
    job.Concludes fails β (x >>= f) := by
  intro bench ready
  rw [run_bind]
  rcases first bench ready with ⟨a, middle, ran, ready'⟩ | ⟨problem, after, ran, failed⟩
  · rw [ran]
    exact rest a middle ready'
  · rw [ran]
    exact .inr ⟨problem, after, rfl, failed⟩

theorem Concludes.keeps (job : Job) (fails : Problem → Prop) :
    Keeps (n := Id) fun α x _ => job.Concludes fails α x :=
  ⟨fun a bench ready => .inl ⟨a, bench, rfl, ready⟩, fun first rest => .bind first rest⟩

theorem Total.concludes {α : Type} {x : Inlining α} (total : Total α x) :
    job.Concludes fails α (Expanding.ofInlining x) := by
  intro bench ready
  obtain ⟨a, shelf, ran⟩ := total bench.shelf
  refine .inl ⟨a, { bench with shelf }, ?_, ready.sound, ready.closed⟩
  rw [Expanding.ofInlining_run, ran]

end Concludes

theorem looksLeft_le {survey : Survey} {all : List String} {most : Nat} (key : String) :
    looksLeft survey [key] all most ≤ 1 + most * all.length := by
  have few := Nat.mul_le_mul_left most (unseen_le_length all (survey.edges.map Prod.fst))
  rw [looksLeft, List.length_singleton]
  omega

theorem Chased.of_edges_eq {before after : Survey} {pending : List String}
    (same : after.edges = before.edges) (chased : Chased before pending) :
    Chased after pending := by
  intro key links listed other link
  rw [same] at listed
  rw [Explored, same]
  exact chased key links listed other link

theorem Ready.explored (agree : job.KeysAgree) {bench : Bench} (ready : job.Ready bench)
    {reference key : String} (inside : reference ∈ referencesOf job.document) {limit : Nat}
    {after : Survey}
    (found : (bench.survey.enter job.around job.document job.location reference).find job.around
      job.location reference = .found key)
    (explored : (Survey.explore job.around limit [key]).run
      (bench.survey.enter job.around job.document job.location reference) = (.ok (), after)) :
    job.Ready { bench with survey := after } ∧
      ∃ target, after.target? key = some target ∧ Explored after key := by
  have met : job.Met job.start := ReflTransGen.refl
  obtain ⟨sound, -, same, entered⟩ := ready.sound.enter met inside
  have entered := entered (sound.unbroken_of_found found)
  have link := (sound.find_iff agree met inside entered key).mp found
  have filed : ((bench.survey.enter job.around job.document job.location reference).target?
    key).isSome := entered.target key link
  change job.Sound (bench.survey.enter job.around job.document job.location reference) at sound
  have closed : Closed (bench.survey.enter job.around job.document job.location reference) :=
    ready.closed.of_edges_eq same
  obtain ⟨sound', more, closed', reached⟩ := sound.explore agree (by simpa using filed)
    (fun first links listed other leads =>
      .inl ((closed first links listed other leads).resolve_right List.not_mem_nil)) explored
  obtain ⟨target, filed⟩ := Option.isSome_iff_exists.mp filed
  exact ⟨⟨sound', closed'⟩, target, more.target? filed, reached key (by simp)⟩

/-- How following a reference of the document fails: at once, or while its target is explored. -/
inductive Stops (job : Job) (limit : Nat) (reference : String) (problem : Problem) : Prop
  | here (broken : job.broken? job.start reference = some problem)
  | exploring {key : String} {survey after : Survey}
      (link : job.link? job.start reference = some key) (sound : job.Sound survey)
      (filed : (survey.target? key).isSome)
      (ran : (Survey.explore job.around limit [key]).run survey = (.error problem, after))

/-- There were more looks at targets than a limit allows. -/
def Exceeded (job : Job) (limit : Nat) (problem : Problem) : Prop :=
  problem = .undeclared .exhausted ∧
    ∀ all most, job.Bounded all most → limit < 1 + most * all.length

section Stops

variable {limit : Nat} {reference : String} {problem : Problem}
  (stops : job.Stops limit reference problem)
include stops

theorem Stops.cases (agree : job.KeysAgree) {holds : Target → Prop} (onward : job.Onward holds)
    (first : ∀ survey, job.Sound survey → ∀ key, job.link? job.start reference = some key →
      ∀ target, survey.target? key = some target → holds target) :
    job.Exceeded limit problem ∨ job.broken? job.start reference = some problem ∨
      ∃ home, job.Met home ∧ holds home ∧
        ∃ further ∈ referencesOf home.value, job.broken? home further = some problem := by
  cases stops with
  | here broken => exact .inr (.inl broken)
  | @exploring key survey after link sound filed ran =>
      have here : ∀ other ∈ [key], ∀ target, survey.target? other = some target → holds target := by
        simpa using first survey sound key link
      refine (sound.explore_error agree onward (by simpa using filed) here ran).imp ?_ .inr
      rintro ⟨exhausted, less⟩
      exact ⟨exhausted, fun all most bounded =>
        Nat.lt_of_lt_of_le (less all most bounded) (looksLeft_le key)⟩

theorem Stops.brokenIn_document (agree : job.KeysAgree)
    (inside : reference ∈ referencesOf job.document) :
    job.Exceeded limit problem ∨ job.BrokenIn job.start job.document problem := by
  refine (stops.cases agree (Onward.met job) fun _ _ _ _ _ _ => trivial).imp_right ?_
  rintro (broken | ⟨home, met, -, further, written, broken⟩)
  · exact ⟨reference, inside, .inl broken⟩
  · exact brokenIn_of_reached met written broken

/-- If the document was read from where it says, then what breaks down is what the reference leads to. -/
theorem Stops.brokenAt (plain : job.Plain) :
    job.Exceeded limit problem ∨ job.BrokenAt job.start reference problem := by
  let reached (other : Target) := ∃ target, job.target? job.start reference = some target ∧
    ReflTransGen job.Refers target other
  have onward : job.Onward reached := by
    rintro survey sound home met ⟨target, leads, before⟩ key link other filed
    obtain ⟨further, written, link⟩ := mem_linksOf.mp link
    exact ⟨target, leads,
      before.tail ⟨further, written, sound.target?_of_link plain met link filed⟩⟩
  have first : ∀ survey, job.Sound survey → ∀ key, job.link? job.start reference = some key →
      ∀ target, survey.target? key = some target → reached target :=
    fun survey sound key link target filed =>
      ⟨target, sound.target?_of_link plain .refl link filed, .refl⟩
  refine (stops.cases plain.keysAgree onward first).imp_right ?_
  rintro (broken | ⟨home, -, ⟨target, leads, before⟩, further, written, broken⟩)
  · exact .inl broken
  · exact .inr ⟨target, leads, home, before, further, written, broken⟩

theorem Stops.brokenIn (plain : job.Plain) {value : Value} (inside : reference ∈ referencesOf value) :
    job.Exceeded limit problem ∨ job.BrokenIn job.start value problem :=
  (stops.brokenAt plain).imp_right fun broken => ⟨reference, inside, broken⟩

end Stops

theorem Exceeded.limit_lt {limit : Nat} {problem : Problem} (exceeded : job.Exceeded limit problem)
    {all : List String} {most : Nat} (bounded : job.Bounded all most) :
    ¬1 + most * all.length ≤ limit :=
  Nat.not_le_of_lt (exceeded.2 all most bounded)

/--
What becomes of a reference of the document: it leads nowhere, or following it fails, or its target is
explored and expanded.
-/
theorem followRoot_cases (agree : job.KeysAgree) {bench : Bench} (ready : job.Ready bench)
    {reference : String} (inside : reference ∈ referencesOf job.document) (limit : Nat)
    (scope : Option Scope) (node : Members Value) (siblings : Expanding (Members Expansion)) :
    (job.link? job.start reference = none ∧ job.broken? job.start reference = none ∧
        ∃ survey lookup, (∀ problem, lookup ≠ .broken problem) ∧ job.Ready { bench with survey } ∧
          (Expanding.followRoot job.around limit job.document job.location scope node reference
            siblings).run bench =
            (Expanding.ofInlining (Inlining.keep node reference lookup)).run
              { bench with survey }) ∨
      (∃ problem survey, job.Stops limit reference problem ∧
        (Expanding.followRoot job.around limit job.document job.location scope node reference
          siblings).run bench = (.error problem, { bench with survey })) ∨
      ∃ key survey target, job.link? job.start reference = some key ∧
        survey.target? key = some target ∧ Explored survey key ∧ job.Ready { bench with survey } ∧
          (Expanding.followRoot job.around limit job.document job.location scope node reference
            siblings).run bench =
            (Expanding.ofInlining (Inlining.expand job.around survey key target) >>=
              overlay node siblings).run { bench with survey } := by
  have met : job.Met job.start := ReflTransGen.refl
  obtain ⟨sound, -, same, entered⟩ := ready.sound.enter met inside
  change job.Sound (bench.survey.enter job.around job.document job.location reference) at sound
  rw [Expanding.followRoot_run]
  dsimp only
  split
  · rename_i key leads
    have entered := entered (sound.unbroken_of_found leads)
    have link := (sound.find_iff agree met inside entered key).mp leads
    split
    · rename_i problem after ran
      exact .inr (.inl ⟨problem, after, .exploring link sound (entered.target key link) ran, rfl⟩)
    · rename_i after explored
      obtain ⟨ready', target, filed, here⟩ := ready.explored agree inside leads explored
      refine .inr (.inr ⟨key, after, target, link, filed, here, ready', ?_⟩)
      rw [filed]
  · rename_i lost
    cases broken : job.broken? job.start reference with
    | none =>
        have link : job.link? job.start reference = none := by
          refine Option.eq_none_iff_forall_ne_some.mpr fun key link => lost key ?_
          exact (sound.find_iff agree met inside (entered broken) key).mpr link
        exact .inl ⟨link, rfl, _, _, (entered broken).find_ne_broken sound,
          .of_survey sound (ready.closed.of_edges_eq same) _, rfl⟩
    | some problem =>
        have found := sound.find_eq_broken.mpr broken
        change (bench.survey.enter job.around job.document job.location reference).find job.around
          job.location reference = _ at found
        rw [found]
        exact .inr (.inl ⟨problem, _, .here broken, rfl⟩)

theorem followRoot_concludes (agree : job.KeysAgree) {fails : Problem → Prop} {limit : Nat}
    {reference : String} (inside : reference ∈ referencesOf job.document)
    (stops : ∀ problem, job.Stops limit reference problem → fails problem)
    {scope : Option Scope} {node : Members Value} {siblings : Expanding (Members Expansion)}
    (known : job.Concludes fails _ siblings) :
    job.Concludes fails _ (Expanding.followRoot job.around limit job.document job.location scope node
      reference siblings) := by
  intro bench ready
  rcases followRoot_cases agree ready inside limit scope node siblings with
    ⟨-, -, survey, lookup, whole, ready', ran⟩ | ⟨problem, survey, stopped, ran⟩ |
      ⟨key, survey, target, -, filed, explored, ready', ran⟩
  · rw [ran]
    exact (Total.keep node reference whole).concludes _ ready'
  · exact .inr ⟨problem, _, ran, stops problem stopped⟩
  · rw [ran]
    have expanded := expand_total ready'.sound agree ready'.closed explored filed
    refine Concludes.bind expanded.concludes (fun expansion => ?_) _ ready'
    exact (Concludes.keeps job fails).overlay (y := ([] : Members Expansion)) known expansion

theorem walk_concludes (agree : job.KeysAgree) {fails : Problem → Prop} {limit : Nat} {value : Value}
    (inside : ∀ reference ∈ referencesOf value, reference ∈ referencesOf job.document)
    (stops : ∀ reference ∈ referencesOf value, ∀ problem, job.Stops limit reference problem →
      fails problem) :
    job.Concludes fails _
      (walk (Expanding.followRoot job.around limit job.document job.location) none value) :=
  walk_holds (Concludes.keeps job fails) (fun _ _ (_ : True) => trivial)
    (fun _ member _ _ _ _ known =>
      followRoot_concludes agree (inside _ member) (stops _ member) known) trivial

end Job

/-- Dereferencing fails, since a reference that is met breaks down. -/
def FailsToRead (limit : Nat) (document : Value) (location : Option String) (work : Work) : Prop :=
  ∃ problem after,
    (dereferenceWithin limit document location).run work = (.error problem, after) ∧
    (work.job document location).BrokenIn (work.job document location).start document problem

/--
There is an end to a document that leads to finitely many others, whatever its references lead to, as
long as no two of them are filed under one key although only one of them leads somewhere.
-/
theorem dereference_ends {work : Work} {document : Value} {location : Option String}
    (agree : (work.job document location).KeysAgree) (finite : (work.job document location).Finite) :
    ∃ least, ∀ limit ≥ least,
      (∃ expansion after,
        (dereferenceWithin limit document location).run work = (.ok expansion, after)) ∨
      FailsToRead limit document location work := by
  obtain ⟨all, most, bounded⟩ := finite.bounded
  refine ⟨1 + most * all.length, fun limit enough => ?_⟩
  have result := dereferenceWithin_fst limit document location work
  have concludes := Job.walk_concludes agree (fun _ inside => inside)
    (fun _ inside _ stops => (stops.brokenIn_document agree inside).resolve_left fun exceeded =>
      exceeded.limit_lt bounded enough) _ (.initial _)
  rcases concludes with ⟨expansion, bench, ran, -⟩ | ⟨problem, bench, ran, broken⟩
  · have found : ((dereferenceWithin limit document location).run work).1 = .ok expansion :=
      result.trans (congrArg Prod.fst ran)
    exact .inl ⟨expansion, _, Prod.ext found rfl⟩
  · have found : ((dereferenceWithin limit document location).run work).1 = .error problem :=
      result.trans (congrArg Prod.fst ran)
    exact .inr ⟨problem, _, Prod.ext found rfl, broken⟩

/-- So there is to a document that was loaded from a location without a hash sign. -/
theorem dereference_ends_of_loaded {location : String} {document : Value} {before work : Work}
    (hashless : Hashless location) (here : ∀ name ∈ work.world.disk.workingDirectory, Hashless name)
    (loaded : (loadRaw location).run before = (.ok document, work))
    (finite : (work.job document (some location)).Finite) :
    ∃ least, ∀ limit ≥ least,
      (∃ expansion after,
        (dereferenceWithin limit document (some location)).run work = (.ok expansion, after)) ∨
      FailsToRead limit document (some location) work :=
  dereference_ends (Work.job_plain hashless loaded here).keysAgree finite

end ApiCompiler.Loading
