import ApiCompiler.Proofs.Loading.Follow
import ApiCompiler.Proofs.Loading.Survey

/-!
An exploration ends once everything is explored, and leaves nothing out on the way, unless a reference
breaks down.
-/

namespace ApiCompiler.Loading

def unseen (all seen : List String) : Nat :=
  (all.filter fun key => !seen.contains key).length

theorem unseen_le_length (all seen : List String) : unseen all seen ≤ all.length :=
  List.length_filter_le ..

theorem unseen_lt {all seen found : List String} {key : String} (known : key ∈ all)
    (new : key ∉ seen) (inside : key ∈ found) : unseen all (seen ++ found) < unseen all seen := by
  have split : (all.filter fun key => !(seen ++ found).contains key) =
      (all.filter fun key => !seen.contains key).filter fun key => !found.contains key := by
    rw [List.filter_filter]
    refine List.filter_congr fun other _ => ?_
    rw [List.contains_append, Bool.not_or, Bool.and_comm]
  rw [unseen, split, unseen, List.length_filter_lt_length_iff_exists]
  exact ⟨key, List.mem_filter.mpr ⟨known, by simpa using new⟩, by simpa using inside⟩

namespace Job

variable {job : Job} {survey : Survey} {home : Target}

/-! One target. -/

/-- Looking at references that are met: each is entered, and those that lead somewhere are found. -/
theorem Sound.lookAll (agree : job.KeysAgree) (met : job.Met home) {references : List String}
    (inside : ∀ reference ∈ references, reference ∈ referencesOf home.value)
    (sound : job.Sound survey) {links : List String} {after : Survey}
    (ran : (Survey.lookAll job.around home references).run survey = (.ok links, after)) :
    links = job.linksOf home references ∧ job.Sound after ∧ survey.Extends after ∧
      after.edges = survey.edges ∧ ∀ reference ∈ references, job.Entered after home reference := by
  induction references generalizing survey links with
  | nil =>
      cases ran
      exact ⟨rfl, sound, .refl _, rfl, nofun⟩
  | cons reference references ih =>
      rw [List.forall_mem_cons] at inside
      obtain ⟨looked, more, same, entered⟩ := sound.enter met inside.1
      rw [Survey.lookAll_cons_run] at ran
      dsimp only at ran
      split at ran
      · cases ran
      · rename_i lookup whole
        have unbroken : job.broken? home reference = none := by
          refine Option.eq_none_iff_forall_ne_some.mpr fun problem broken => ?_
          exact whole problem (looked.find_eq_broken.mpr broken)
        have found := looked.find_iff agree met inside.1 (entered unbroken)
        split at ran
        · rename_i later last rest
          obtain ⟨collected, rfl⟩ := Prod.mk.inj ran
          obtain rfl := Except.ok.inj collected
          obtain ⟨rfl, sound', more', same', entered'⟩ := ih inside.2 looked rest
          refine ⟨?_, sound', more.trans more', same'.trans same,
            List.forall_mem_cons.mpr ⟨(entered unbroken).mono more', entered'⟩⟩
          have link : Lookup.key? _ = job.link? home reference :=
            Option.ext fun key => Lookup.key?_eq_some.trans (found key)
          rw [link, linksOf, linksOf, List.filterMap_cons]
          cases job.link? home reference <;> rfl
        · cases ran

theorem Sound.lookAll_error (met : job.Met home) {references : List String}
    (inside : ∀ reference ∈ references, reference ∈ referencesOf home.value)
    (sound : job.Sound survey) {problem : Problem} {after : Survey}
    (ran : (Survey.lookAll job.around home references).run survey = (.error problem, after)) :
    ∃ reference ∈ references, job.broken? home reference = some problem := by
  induction references generalizing survey with
  | nil => cases ran
  | cons reference references ih =>
      rw [List.forall_mem_cons] at inside
      have looked := (sound.enter met inside.1).1
      rw [Survey.lookAll_cons_run] at ran
      dsimp only at ran
      split at ran
      · rename_i other broken
        cases ran
        exact ⟨reference, List.mem_cons_self, looked.find_eq_broken.mp broken⟩
      · split at ran
        · cases ran
        · rename_i other last rest
          cases ran
          obtain ⟨further, later, broken⟩ := ih inside.2 looked rest
          exact ⟨further, List.mem_cons_of_mem _ later, broken⟩

theorem not_mem_of_lookup_eq_none {edges : List (String × List String)} {key : String}
    (absent : edges.lookup key = none) : key ∉ edges.map Prod.fst := by
  intro listed
  obtain ⟨pair, member, same⟩ := List.mem_map.mp listed
  exact bne_iff_ne.mp (List.lookup_eq_none_iff.mp absent pair member) same.symm

/-- The survey knows what the target refers to. -/
def Explored (survey : Survey) (key : String) : Prop :=
  (survey.edges.lookup key).isSome

theorem Sound.exploreTarget (sound : job.Sound survey) (agree : job.KeysAgree) {key : String}
    (found : survey.target? key = some home) (new : survey.edges.lookup key = none)
    {links : List String} {after : Survey}
    (ran : (Survey.exploreTarget job.around key home).run survey = (.ok links, after)) :
    links = job.links home ∧ job.Sound after ∧ survey.Extends after ∧
      after.edges = survey.edges ++ [(key, job.links home)] := by
  have met := sound.met found
  rw [Survey.exploreTarget_run] at ran
  split at ran
  · rename_i links middle looked
    cases ran
    obtain ⟨rfl, sound', more, same, entered⟩ :=
      sound.lookAll agree met (fun _ inside => inside) looked
    have further : middle.Extends { middle with edges := middle.edges ++ [(key, job.links home)] } :=
      ⟨List.prefix_refl _, List.prefix_refl _, List.prefix_append ..⟩
    refine ⟨rfl, ⟨sound'.known, sound'.documents, sound'.targets, ?_, ?_⟩, more.trans further,
      congrArg (· ++ _) same⟩
    · intro other links listed
      rcases lookup_concat_eq_some listed with earlier | ⟨rfl, rfl⟩
      · obtain ⟨target, filed, links_eq, entered⟩ := sound'.edges other links earlier
        exact ⟨target, filed, links_eq, fun reference inside => (entered reference inside).mono further⟩
      · exact ⟨home, more.target? found, rfl,
          fun reference inside => (entered reference inside).mono further⟩
    · rw [List.map_append]
      refine List.nodup_append.mpr ⟨sound'.distinct, by simp, ?_⟩
      intro other listed last single same'
      rw [List.map_singleton, List.mem_singleton] at single
      subst same' single
      exact not_mem_of_lookup_eq_none new (same ▸ listed)
  · cases ran

theorem Sound.exploreTarget_error (sound : job.Sound survey) {key : String}
    (found : survey.target? key = some home) {problem : Problem} {after : Survey}
    (ran : (Survey.exploreTarget job.around key home).run survey = (.error problem, after)) :
    ∃ reference ∈ referencesOf home.value, job.broken? home reference = some problem := by
  rw [Survey.exploreTarget_run] at ran
  split at ran
  · cases ran
  · rename_i other middle looked
    cases ran
    exact sound.lookAll_error (sound.met found) (fun _ inside => inside) looked

/-! Everything a target leads to. -/

/-- What an explored target refers to is explored, or waits to be. -/
def Chased (survey : Survey) (pending : List String) : Prop :=
  ∀ key links, survey.edges.lookup key = some links → ∀ other ∈ links,
    Explored survey other ∨ other ∈ pending

/-- What an explored target refers to is explored. -/
def Closed (survey : Survey) : Prop :=
  Chased survey []

theorem Explored.mono {key : String} (explored : Explored survey key) {after : Survey}
    (more : survey.Extends after) : Explored after key := by
  obtain ⟨links, listed⟩ := Option.isSome_iff_exists.mp explored
  exact Option.isSome_iff_exists.mpr ⟨links, more.edges.lookup_eq_some listed⟩

theorem links_filed {target : Target} (entered : ∀ reference ∈ referencesOf target.value,
    job.Entered survey target reference) {key : String} (link : key ∈ job.links target) :
    (survey.target? key).isSome := by
  obtain ⟨reference, inside, leads⟩ := mem_linksOf.mp link
  exact (entered reference inside).target key leads

/-- A target that waits can be taken out once it is explored. -/
theorem Chased.skip {key : String} {pending : List String}
    (chased : Chased survey (key :: pending)) (here : Explored survey key) :
    Chased survey pending := by
  intro first links listed other link
  rcases chased first links listed other link with done | waits
  · exact .inl done
  · rcases List.mem_cons.mp waits with rfl | later
    · exact .inl here
    · exact .inr later

/-- A target that waits is explored; then what it refers to waits in its place. -/
theorem Chased.next {key : String} {links pending : List String}
    (chased : Chased survey (key :: pending)) {after : Survey} (more : survey.Extends after)
    (same : after.edges = survey.edges ++ [(key, links)]) (here : Explored after key) :
    Chased after (links ++ pending) := by
  intro first others listed other link
  rw [same] at listed
  rcases lookup_concat_eq_some listed with earlier | ⟨rfl, rfl⟩
  · rcases chased first others earlier other link with done | waits
    · exact .inl (done.mono more)
    · rcases List.mem_cons.mp waits with rfl | later
      · exact .inl here
      · exact .inr (List.mem_append_right _ later)
  · exact .inr (List.mem_append_left _ link)

/-- What a newly explored target refers to is filed, and so is what waited with it. -/
theorem Sound.filed_next (sound : job.Sound survey) {key : String} {target : Target}
    {pending : List String} {before : Survey} (more : before.Extends survey)
    (same : survey.edges = before.edges ++ [(key, job.links target)])
    (listed : before.edges.lookup key = none)
    (filed : ∀ other ∈ key :: pending, (before.target? other).isSome) :
    Explored survey key ∧ ∀ other ∈ job.links target ++ pending, (survey.target? other).isSome := by
  have new : survey.edges.lookup key = some (job.links target) := by
    rw [same]
    exact lookup_concat_self listed _
  refine ⟨Option.isSome_iff_exists.mpr ⟨_, new⟩, fun other waits => ?_⟩
  rcases List.mem_append.mp waits with link | later
  · obtain ⟨target', -, links, entered⟩ := sound.edges key _ new
    exact links_filed entered (links ▸ link)
  · exact more.target?_isSome (filed other (List.mem_cons_of_mem _ later))

theorem Sound.explore (agree : job.KeysAgree) {limit : Nat} {pending : List String}
    (sound : job.Sound survey) (filed : ∀ key ∈ pending, (survey.target? key).isSome)
    (chased : Chased survey pending) {after : Survey}
    (explored : (Survey.explore job.around limit pending).run survey = (.ok (), after)) :
    job.Sound after ∧ survey.Extends after ∧ Closed after ∧ ∀ key ∈ pending, Explored after key := by
  -- The list of what waits may grow, so the induction is on the limit.
  induction limit generalizing survey pending with
  | zero =>
      cases pending with
      | nil =>
          cases explored
          exact ⟨sound, .refl _, chased, nofun⟩
      | cons key pending => cases explored
  | succ limit ih =>
      cases pending with
      | nil =>
          cases explored
          exact ⟨sound, .refl _, chased, nofun⟩
      | cons key pending =>
          rw [Survey.explore_cons_run] at explored
          obtain ⟨target, found⟩ := Option.isSome_iff_exists.mp (filed key (by simp))
          rw [found] at explored
          cases listed : survey.edges.lookup key with
          | some links =>
              rw [listed] at explored
              have here : Explored survey key := Option.isSome_iff_exists.mpr ⟨links, listed⟩
              obtain ⟨sound', more, closed, reached⟩ :=
                ih sound (fun other later => filed other (by simp [later])) (chased.skip here)
                  explored
              exact ⟨sound', more, closed, List.forall_mem_cons.mpr ⟨here.mono more, reached⟩⟩
          | none =>
              rw [listed] at explored
              dsimp only at explored
              split at explored
              · rename_i links middle looked
                obtain ⟨rfl, sound', more, same⟩ := sound.exploreTarget agree found listed looked
                obtain ⟨here, filed'⟩ := sound'.filed_next more same listed filed
                obtain ⟨sound'', more', closed, reached⟩ :=
                  ih sound' filed' (chased.next more same here) explored
                exact ⟨sound'', more.trans more', closed, List.forall_mem_cons.mpr
                  ⟨here.mono more', fun other later => reached other (by simp [later])⟩⟩
              · cases explored

/-! An end. -/

/-- All keys there can be, and a number that no target has more references than. -/
structure Bounded (job : Job) (all : List String) (most : Nat) : Prop where
  keys : ∀ home, job.Met home → ∀ reference ∈ referencesOf home.value, ∀ key,
    job.link? home reference = some key → key ∈ all
  references : ∀ target, job.Met target → (referencesOf target.value).length ≤ most

/-- More than the looks that an exploration still takes. -/
def looksLeft (survey : Survey) (pending all : List String) (most : Nat) : Nat :=
  pending.length + most * unseen all (survey.edges.map Prod.fst)

/-- To explore a target takes one look from those that are left, whatever it refers to. -/
theorem Sound.looksLeft_exploreTarget (sound : job.Sound survey) {all : List String} {most : Nat}
    (bounded : job.Bounded all most) {key : String} {target : Target}
    (found : survey.target? key = some target) (listed : survey.edges.lookup key = none)
    {middle : Survey} (same : middle.edges = survey.edges ++ [(key, job.links target)])
    (pending : List String) :
    looksLeft middle (job.links target ++ pending) all most <
      looksLeft survey (key :: pending) all most := by
  obtain ⟨home, met, reference, inside, filed, leads⟩ := sound.targets key target found
  have known : key ∈ all := bounded.keys home met reference inside key
    (link?_eq_some.mpr ⟨by rw [leads]; rfl, filed⟩)
  have fewer := unseen_lt known (not_mem_of_lookup_eq_none listed) (List.mem_singleton.mpr rfl)
  have few : (job.links target).length ≤ most :=
    Nat.le_trans (List.length_filterMap_le ..) (bounded.references target (sound.met found))
  have less := Nat.mul_le_mul_left most (Nat.succ_le_of_lt fewer)
  rw [Nat.mul_succ] at less
  rw [looksLeft, looksLeft, same, List.map_append, List.map_singleton, List.length_append,
    List.length_cons]
  dsimp only
  omega

/-- What is filed under the links of such targets is such a target. -/
def Onward (job : Job) (holds : Target → Prop) : Prop :=
  ∀ survey, job.Sound survey → ∀ home, job.Met home → holds home → ∀ key ∈ job.links home,
    ∀ target, survey.target? key = some target → holds target

theorem Onward.met (job : Job) : job.Onward fun _ => True :=
  fun _ _ _ _ _ _ _ _ _ => trivial

/-- An exploration fails because a limit is exceeded, or because a reference breaks down on the way. -/
theorem Sound.explore_error (agree : job.KeysAgree) {holds : Target → Prop}
    (onward : job.Onward holds) {limit : Nat} {pending : List String} (sound : job.Sound survey)
    (filed : ∀ key ∈ pending, (survey.target? key).isSome)
    (here : ∀ key ∈ pending, ∀ target, survey.target? key = some target → holds target)
    {problem : Problem} {after : Survey}
    (ran : (Survey.explore job.around limit pending).run survey = (.error problem, after)) :
    (problem = .undeclared .exhausted ∧ ∀ all most, job.Bounded all most →
        limit < looksLeft survey pending all most) ∨
      ∃ home, job.Met home ∧ holds home ∧
        ∃ reference ∈ referencesOf home.value, job.broken? home reference = some problem := by
  induction limit generalizing survey pending with
  | zero =>
      cases pending with
      | nil => cases ran
      | cons key pending =>
          cases ran
          refine .inl ⟨rfl, fun all most _ => ?_⟩
          rw [looksLeft, List.length_cons]
          omega
  | succ limit ih =>
      cases pending with
      | nil => cases ran
      | cons key pending =>
          rw [Survey.explore_cons_run] at ran
          obtain ⟨target, found⟩ := Option.isSome_iff_exists.mp (filed key (by simp))
          rw [found] at ran
          cases listed : survey.edges.lookup key with
          | some links =>
              rw [listed] at ran
              refine (ih sound (fun other later => filed other (by simp [later]))
                (fun other later => here other (by simp [later])) ran).imp_left (And.imp_right ?_)
              intro less all most bounded
              have fewer := less all most bounded
              rw [looksLeft] at fewer
              rw [looksLeft, List.length_cons]
              omega
          | none =>
              rw [listed] at ran
              dsimp only at ran
              split at ran
              · rename_i links middle looked
                obtain ⟨rfl, sound', more, same⟩ := sound.exploreTarget agree found listed looked
                have filed' := (sound'.filed_next more same listed filed).2
                refine (ih sound' filed' ?_ ran).imp_left (And.imp_right ?_)
                · intro other waits target' found'
                  rcases List.mem_append.mp waits with link | later
                  · exact onward middle sound' target (sound.met found)
                      (here key (by simp) target found) other link target' found'
                  · obtain ⟨earlier, known⟩ :=
                      Option.isSome_iff_exists.mp (filed other (by simp [later]))
                    rw [more.target? known] at found'
                    exact Option.some.inj found' ▸ here other (by simp [later]) earlier known
                · intro less all most bounded
                  have fewer := sound.looksLeft_exploreTarget bounded found listed same pending
                  exact Nat.lt_of_le_of_lt (less all most bounded) fewer
              · rename_i other middle looked
                cases ran
                obtain ⟨reference, inside, broken⟩ := sound.exploreTarget_error found looked
                exact .inr ⟨target, sound.met found, here key (by simp) target found, reference,
                  inside, broken⟩

/-- The references that are met lead into finitely many documents. -/
def Finite (job : Job) : Prop :=
  ∃ locations : List String, ∀ target, job.Met target → ∀ location,
    target.location = some location → location ∈ locations

section Own

variable
  (own : ∀ reference ∈ referencesOf job.document,
    addressOf job.around job.location (splitReference reference).1 = .own)
include own

/-- A document that only refers to itself leads into no other one. -/
theorem home_of_own {target : Target} (met : job.Met target) :
    target.root = job.document ∧ target.location = job.location := by
  induction met with
  | refl => exact ⟨rfl, rfl⟩
  | tail met refers ih =>
      obtain ⟨reference, written, leads⟩ := refers
      have address := own reference (ih.1 ▸ (Met.source met).2.subset written)
      rw [← ih.2] at address
      rw [target?, place?_of_own address] at leads
      obtain ⟨value, -, rfl⟩ := Option.map_eq_some_iff.mp leads
      exact ih

theorem finite_of_own : job.Finite := by
  refine ⟨job.location.toList, fun target met location placed => ?_⟩
  rw [← (home_of_own own met).2]
  exact Option.mem_toList.mpr placed

/-- A document that only refers to itself leads to nothing that breaks down. -/
theorem unbroken_of_own {problem : Problem} : ¬ job.BrokenIn job.start job.document problem := by
  have sound {target : Target} (met : job.Met target) {reference : String}
      (written : reference ∈ referencesOf target.value) : job.broken? target reference = none := by
    have home := home_of_own own met
    have address := own reference (home.1 ▸ (Met.source met).2.subset written)
    rw [← home.2] at address
    exact broken?_of_place (place?_of_own address)
  rintro ⟨reference, inside, broken | ⟨target, leads, other, onward, further, written, broken⟩⟩
  · rw [sound .refl inside] at broken
    cases broken
  · have met : job.Met other := .head ⟨reference, inside, leads⟩ onward
    rw [sound met written] at broken
    cases broken

end Own

theorem Finite.bounded (finite : job.Finite) : ∃ all most, job.Bounded all most := by
  obtain ⟨locations, listed⟩ := finite
  let sources : List (Option String × Value) := (job.location, job.document) ::
    locations.filterMap fun location => (job.document? location).map (some location, ·)
  let references := sources.flatMap fun source => referencesOf source.2
  have source : ∀ target, job.Met target → (target.location, target.root) ∈ sources := by
    intro target met
    rcases met.source.1 with ⟨root, location⟩ | ⟨other, location, found⟩
    · rw [root, location]
      exact List.mem_cons_self
    · refine List.mem_cons_of_mem _ (List.mem_filterMap.mpr
        ⟨other, listed target met other location, ?_⟩)
      rw [found, location]
      rfl
  refine ⟨sources.flatMap fun source => references.map fun reference =>
    targetKey source.1 (splitReference reference).2, references.length, ⟨?_, ?_⟩⟩
  · intro home met reference inside key link
    obtain ⟨leads, filed⟩ := link?_eq_some.mp link
    obtain ⟨target, leads⟩ := Option.isSome_iff_exists.mp leads
    have within := source target (met.refers ⟨reference, inside, leads⟩)
    have listed : reference ∈ references :=
      List.mem_flatMap.mpr ⟨_, source home met, met.source.2.subset inside⟩
    obtain ⟨place, same, rfl⟩ := Option.map_eq_some_iff.mp filed
    have pointer := place?_pointer same
    rw [target?, same, Option.bind_some] at leads
    obtain ⟨value, -, rfl⟩ := Option.map_eq_some_iff.mp leads
    exact List.mem_flatMap.mpr ⟨_, within, List.mem_map.mpr ⟨reference, listed, by rw [← pointer]⟩⟩
  · intro target met
    have all : (referencesOf target.root).Sublist references :=
      List.sublist_flatten_of_mem (List.mem_map.mpr ⟨_, source target met, rfl⟩)
    exact (met.source.2.trans all).length_le

end Job

end ApiCompiler.Loading
