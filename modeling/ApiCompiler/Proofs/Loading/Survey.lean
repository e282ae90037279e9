import Mathlib.Tactic.ByContra
import ApiCompiler.Proofs.Loading.Targets

/-!
What a survey knows is true of the references, and grows with each look at one.
-/

namespace ApiCompiler.Loading

/-! What is found under a key once a table has one more entry. -/

theorem lookup_concat_eq_some {α : Type} {entries : List (String × α)} {key other : String}
    {added found : α} (here : (entries ++ [(key, added)]).lookup other = some found) :
    entries.lookup other = some found ∨ other = key ∧ found = added := by
  rw [List.lookup_append] at here
  cases earlier : entries.lookup other with
  | some old =>
      rw [earlier] at here
      exact .inl here
  | none =>
      rw [earlier, Option.none_or, List.lookup_cons] at here
      split at here
      · rename_i same
        cases here
        exact .inr ⟨eq_of_beq same, rfl⟩
      · cases here

theorem lookup_concat_self {α : Type} {entries : List (String × α)} {key : String}
    (absent : entries.lookup key = none) (added : α) :
    (entries ++ [(key, added)]).lookup key = some added := by
  simp [List.lookup_append, absent]

/-- Nothing of a survey is lost or changed. -/
structure Survey.Extends (before after : Survey) : Prop where
  documents : before.documents <+: after.documents
  targets : before.targets <+: after.targets
  edges : before.edges <+: after.edges

namespace Survey.Extends

theorem refl (survey : Survey) : Survey.Extends survey survey :=
  ⟨List.prefix_refl _, List.prefix_refl _, List.prefix_refl _⟩

theorem trans {first second third : Survey} (before : first.Extends second)
    (after : second.Extends third) : first.Extends third :=
  ⟨before.documents.trans after.documents, before.targets.trans after.targets,
    before.edges.trans after.edges⟩

variable {before after : Survey} (more : before.Extends after)
include more

theorem target? {key : String} {target : Target} (found : before.target? key = some target) :
    after.target? key = some target :=
  more.targets.lookup_eq_some found

theorem target?_isSome {key : String} (found : (before.target? key).isSome) :
    (after.target? key).isSome := by
  obtain ⟨target, found⟩ := Option.isSome_iff_exists.mp found
  rw [more.target? found]
  rfl

end Survey.Extends

namespace Survey

theorem enter_eq (survey : Survey) (around : Surroundings) (root : Value)
    (location : Option String) (reference : String) :
    survey.enter around root location reference =
      match addressOf around location (splitReference reference).1 with
      | .own => survey.withTarget root location (splitReference reference).2
      | .other other =>
          match (survey.withDocument around other).documents.lookup other with
          | some root => (survey.withDocument around other).withTarget root (some other)
              (splitReference reference).2
          | none => survey.withDocument around other
      | .disabled | .faulty _ => survey := rfl

theorem find_eq (survey : Survey) (around : Surroundings) (location : Option String)
    (reference : String) :
    survey.find around location reference =
      match addressOf around location (splitReference reference).1 with
      | .own => survey.findAt location (splitReference reference).2
      | .disabled => .external
      | .faulty fault => .dangling fault.message
      | .other other =>
          match survey.documents.lookup other, around.content other with
          | some _, _ => survey.findAt (some other) (splitReference reference).2
          | none, .error problem => .ofProblem problem
          | none, .ok _ => .unloadable := rfl

end Survey

namespace Job

variable {job : Job} {survey : Survey} {home : Target} {reference : String}

/--
A reference was looked at, which did not break down: its document is read if that can be, and its target
is filed.
-/
structure Entered (job : Job) (survey : Survey) (home : Target) (reference : String) : Prop where
  document : ∀ other root, addressOf job.around home.location (splitReference reference).1 =
    .other other → job.document? other = some root → survey.documents.lookup other = some root
  target : ∀ key, job.link? home reference = some key → (survey.target? key).isSome
  unbroken : job.broken? home reference = none

theorem Entered.mono (entered : job.Entered survey home reference) {after : Survey}
    (more : survey.Extends after) : job.Entered after home reference :=
  ⟨fun _ _ address found => more.documents.lookup_eq_some (entered.document _ _ address found),
    fun _ link => more.target?_isSome (entered.target _ link), entered.unbroken⟩

structure Sound (job : Job) (survey : Survey) : Prop where
  known : job.known <+: survey.documents
  documents : ∀ location root, survey.documents.lookup location = some root →
    job.document? location = some root
  targets : ∀ key target, survey.target? key = some target → ∃ home, job.Met home ∧
    ∃ reference ∈ referencesOf home.value,
      job.key? home reference = some key ∧ job.target? home reference = some target
  edges : ∀ key links, survey.edges.lookup key = some links → ∃ target,
    survey.target? key = some target ∧ links = job.links target ∧
      ∀ reference ∈ referencesOf target.value, job.Entered survey target reference
  distinct : (survey.edges.map Prod.fst).Nodup

theorem Sound.met (sound : job.Sound survey) {key : String} {target : Target}
    (found : survey.target? key = some target) : job.Met target := by
  obtain ⟨home, met, reference, inside, -, leads⟩ := sound.targets key target found
  exact met.refers ⟨reference, inside, leads⟩

theorem Sound.initial (job : Job) : job.Sound { documents := job.known } where
  known := List.prefix_refl _
  documents location root found := by
    rw [document?, found, Option.some_or]
  targets := by rintro _ _ ⟨⟩
  edges := by rintro _ _ ⟨⟩
  distinct := List.nodup_nil

theorem Sound.unknown (sound : job.Sound survey) {location : String}
    (absent : survey.documents.lookup location = none) : job.known.lookup location = none := by
  by_contra known
  obtain ⟨root, known⟩ := Option.ne_none_iff_exists'.mp known
  rw [sound.known.lookup_eq_some known] at absent
  cases absent

/-! Looking at a reference. -/

theorem withDocument_extends (survey : Survey) (around : Surroundings) (location : String) :
    survey.Extends (survey.withDocument around location) := by
  rw [Survey.withDocument]
  split
  · exact ⟨List.prefix_append .., List.prefix_refl _, List.prefix_refl _⟩
  · exact .refl survey

theorem withTarget_extends (survey : Survey) (root : Value) (location : Option String)
    (pointer : String) : survey.Extends (survey.withTarget root location pointer) := by
  rw [Survey.withTarget]
  split
  · exact ⟨List.prefix_refl _, List.prefix_append .., List.prefix_refl _⟩
  · exact .refl survey

theorem Sound.withDocument (sound : job.Sound survey) (location : String) :
    job.Sound (survey.withDocument job.around location) := by
  have more := withDocument_extends survey job.around location
  rw [Survey.withDocument] at more ⊢
  split at more
  · rename_i value absent content
    refine ⟨sound.known.trans more.documents, ?_, sound.targets, ?_, sound.distinct⟩
    · intro other root found
      rcases lookup_concat_eq_some found with earlier | ⟨rfl, rfl⟩
      · exact sound.documents other root earlier
      · rw [document?, sound.unknown absent, content]
        rfl
    · intro key links found
      obtain ⟨target, filed, same, entered⟩ := sound.edges key links found
      exact ⟨target, filed, same, fun reference inside => (entered reference inside).mono more⟩
  · exact sound

theorem Sound.withTarget (sound : job.Sound survey) (met : job.Met home)
    (inside : reference ∈ referencesOf home.value) {root : Value} {location : Option String}
    {pointer : String} (place : job.place? home reference = some (root, location, pointer)) :
    job.Sound (survey.withTarget root location pointer) := by
  have more := withTarget_extends survey root location pointer
  rw [Survey.withTarget] at more ⊢
  split at more
  · rename_i value absent leads
    refine ⟨sound.known, sound.documents, ?_, ?_, sound.distinct⟩
    · intro key target found
      rcases lookup_concat_eq_some found with earlier | ⟨rfl, rfl⟩
      · exact sound.targets key target earlier
      · refine ⟨home, met, reference, inside, ?_, ?_⟩
        · rw [key?, place]
          rfl
        · rw [target?, place, Option.bind_some, leads]
          rfl
    · intro key links found
      obtain ⟨target, filed, same, entered⟩ := sound.edges key links found
      exact ⟨target, more.target? filed, same,
        fun reference inside => (entered reference inside).mono more⟩
  · exact sound

theorem withTarget_isSome (survey : Survey) {root : Value} {location : Option String}
    {pointer : String} (leads : (Pointer.resolve? root pointer.toList).isSome) :
    ((survey.withTarget root location pointer).target? (targetKey location pointer)).isSome := by
  obtain ⟨value, leads⟩ := Option.isSome_iff_exists.mp leads
  rw [Survey.withTarget, leads]
  cases found : survey.target? (targetKey location pointer) with
  | some target => exact Option.isSome_iff_exists.mpr ⟨target, found⟩
  | none =>
      rw [Survey.target?] at found
      exact Option.isSome_iff_exists.mpr ⟨_, lookup_concat_self found _⟩

theorem withDocument_lookup (sound : job.Sound survey) {location : String} {root : Value}
    (found : job.document? location = some root) :
    (survey.withDocument job.around location).documents.lookup location = some root := by
  rw [Survey.withDocument]
  cases present : survey.documents.lookup location with
  | some old =>
      have same := sound.documents location old present
      rw [found] at same
      cases same
      exact present
  | none =>
      rw [document?, sound.unknown present, Option.none_or] at found
      cases content : job.around.content location with
      | error problem => rw [content] at found; cases found
      | ok value =>
          rw [content] at found
          cases found
          exact lookup_concat_self present root

theorem withTarget_edges (survey : Survey) (root : Value) (location : Option String)
    (pointer : String) : (survey.withTarget root location pointer).edges = survey.edges := by
  rw [Survey.withTarget]
  split <;> rfl

theorem withDocument_edges (survey : Survey) (around : Surroundings) (location : String) :
    (survey.withDocument around location).edges = survey.edges := by
  rw [Survey.withDocument]
  split <;> rfl

theorem entered_of_place_none (place : job.place? home reference = none)
    (elsewhere : ∀ other, addressOf job.around home.location (splitReference reference).1 ≠
      .other other) (unbroken : job.broken? home reference = none) :
    job.Entered survey home reference where
  document other _ address := absurd address (elsewhere other)
  target key link := by
    rw [link?, target?, place] at link
    cases link
  unbroken := unbroken

theorem isSome_withTarget_of_link {root : Value} {location : Option String} {pointer key : String}
    (place : job.place? home reference = some (root, location, pointer))
    (link : job.link? home reference = some key) :
    ((survey.withTarget root location pointer).target? key).isSome := by
  obtain ⟨leads, filed⟩ := link?_eq_some.mp link
  rw [target?, place, Option.bind_some, Option.isSome_map] at leads
  rw [key?, place] at filed
  cases filed
  exact withTarget_isSome survey leads

/-- The document that a reference points into is at hand, and its target is filed. -/
theorem Sound.enterTarget (sound : job.Sound survey) (met : job.Met home)
    (inside : reference ∈ referencesOf home.value) {root : Value} {location : Option String}
    {pointer : String} (place : job.place? home reference = some (root, location, pointer))
    (document : ∀ other root, addressOf job.around home.location (splitReference reference).1 =
      .other other → job.document? other = some root →
        survey.documents.lookup other = some root) :
    job.Sound (survey.withTarget root location pointer) ∧
      survey.Extends (survey.withTarget root location pointer) ∧
      (survey.withTarget root location pointer).edges = survey.edges ∧
      job.Entered (survey.withTarget root location pointer) home reference := by
  have more := withTarget_extends survey root location pointer
  refine ⟨sound.withTarget met inside place, more, withTarget_edges .., ?_, ?_,
    broken?_of_place place⟩
  · intro other value address found
    exact more.documents.lookup_eq_some (document other value address found)
  · exact fun key link => isSome_withTarget_of_link place link

theorem Sound.lookup_withDocument_eq_none (sound : job.Sound survey) {location : String}
    (missing : job.document? location = none) :
    (survey.withDocument job.around location).documents.lookup location = none := by
  by_contra present
  obtain ⟨root, present⟩ := Option.ne_none_iff_exists'.mp present
  rw [(sound.withDocument location).documents location root present] at missing
  cases missing

/--
A look at a reference that is met: all that it tells is true, and it is entered unless that breaks down.
-/
theorem Sound.enter (sound : job.Sound survey) (met : job.Met home)
    (inside : reference ∈ referencesOf home.value) :
    job.Sound (survey.enter job.around home.root home.location reference) ∧
      survey.Extends (survey.enter job.around home.root home.location reference) ∧
      (survey.enter job.around home.root home.location reference).edges = survey.edges ∧
      (job.broken? home reference = none →
        job.Entered (survey.enter job.around home.root home.location reference) home
          reference) := by
  rw [Survey.enter_eq]
  cases address : addressOf job.around home.location (splitReference reference).1 with
  | own =>
      obtain ⟨filed, more, same, entered⟩ := sound.enterTarget met inside (place?_of_own address)
        fun other _ elsewhere => by rw [address] at elsewhere; cases elsewhere
      exact ⟨filed, more, same, fun _ => entered⟩
  | other other =>
      have read := sound.withDocument other
      have more := withDocument_extends survey job.around other
      cases found : job.document? other with
      | some root =>
          have place : job.place? home reference =
              some (root, some other, (splitReference reference).2) := by
            rw [place?_of_other address, found]
            rfl
          have present := withDocument_lookup sound found
          dsimp only
          rw [present]
          obtain ⟨filed, further, same, entered⟩ := read.enterTarget met inside place
            fun another value elsewhere there => by
              rw [address] at elsewhere
              cases elsewhere
              rw [← there, found]
              exact present
          exact ⟨filed, more.trans further, same.trans (withDocument_edges ..), fun _ => entered⟩
      | none =>
          have place : job.place? home reference = none := by
            rw [place?_of_other address, found]
            rfl
          dsimp only
          rw [sound.lookup_withDocument_eq_none found]
          refine ⟨read, more, withDocument_edges .., fun unbroken => ⟨?_, ?_, unbroken⟩⟩
          · intro another value elsewhere there
            rw [address] at elsewhere
            cases elsewhere
            rw [found] at there
            cases there
          · intro key link
            rw [link?, target?, place] at link
            cases link
  | disabled =>
      have place : job.place? home reference = none := by rw [place?, address]
      exact ⟨sound, .refl survey, rfl, entered_of_place_none place fun _ elsewhere => by
        rw [address] at elsewhere; cases elsewhere⟩
  | faulty fault =>
      have place : job.place? home reference = none := by rw [place?, address]
      exact ⟨sound, .refl survey, rfl, entered_of_place_none place fun _ elsewhere => by
        rw [address] at elsewhere; cases elsewhere⟩

/-! Finding what a reference leads to. -/

theorem findAt_eq_found {survey : Survey} {location : Option String} {pointer key : String} :
    survey.findAt location pointer = .found key ↔
      targetKey location pointer = key ∧ (survey.target? key).isSome := by
  rw [Survey.findAt]
  constructor
  · intro found
    split at found
    · rename_i filed
      cases found
      exact ⟨rfl, filed⟩
    · cases found
  · rintro ⟨rfl, filed⟩
    rw [if_pos filed]

theorem Sound.link_of_filed (sound : job.Sound survey) (agree : job.KeysAgree) (met : job.Met home)
    (inside : reference ∈ referencesOf home.value) {key : String}
    (filed : job.key? home reference = some key) (known : (survey.target? key).isSome) :
    job.link? home reference = some key := by
  obtain ⟨target, known⟩ := Option.isSome_iff_exists.mp known
  obtain ⟨other, met', reference', inside', filed', leads⟩ := sound.targets key target known
  -- The target may have been filed for another reference; the keys agree, so this one leads there too.
  have somewhere := agree other home met' met reference' inside' reference inside key filed'
    filed (by rw [leads]; rfl)
  exact link?_eq_some.mpr ⟨somewhere, filed⟩

theorem Sound.link_of_found (sound : job.Sound survey) (agree : job.KeysAgree) (met : job.Met home)
    (inside : reference ∈ referencesOf home.value) {key : String}
    (found : survey.find job.around home.location reference = .found key) :
    job.link? home reference = some key := by
  rw [Survey.find_eq] at found
  cases address : addressOf job.around home.location (splitReference reference).1 with
  | own =>
      rw [address] at found
      obtain ⟨same, known⟩ := findAt_eq_found.mp found
      refine sound.link_of_filed agree met inside ?_ known
      rw [key?, place?_of_own address, ← same]
      rfl
  | other other =>
      rw [address] at found
      dsimp only at found
      cases there : survey.documents.lookup other with
      | some root =>
          rw [there] at found
          obtain ⟨same, known⟩ := findAt_eq_found.mp found
          refine sound.link_of_filed agree met inside ?_ known
          rw [key?, place?_of_other address, sound.documents other root there, ← same]
          rfl
      | none =>
          rw [there] at found
          split at found
          · contradiction
          · exact absurd found (Lookup.ofProblem_ne_found _ _)
          · cases found
  | disabled => rw [address] at found; cases found
  | faulty fault => rw [address] at found; cases found

theorem Entered.found_of_link (entered : job.Entered survey home reference) {key : String}
    (link : job.link? home reference = some key) :
    survey.find job.around home.location reference = .found key := by
  have known := entered.target key link
  obtain ⟨-, filed⟩ := link?_eq_some.mp link
  rw [key?] at filed
  rw [Survey.find_eq]
  cases address : addressOf job.around home.location (splitReference reference).1 with
  | own =>
      rw [place?_of_own address] at filed
      exact findAt_eq_found.mpr ⟨Option.some.inj filed, known⟩
  | other other =>
      rw [place?_of_other address] at filed
      dsimp only
      cases there : job.document? other with
      | some root =>
          rw [there] at filed
          rw [entered.document other root address there]
          exact findAt_eq_found.mpr ⟨Option.some.inj filed, known⟩
      | none =>
          rw [there] at filed
          cases filed
  | disabled => rw [place?, address] at filed; cases filed
  | faulty fault => rw [place?, address] at filed; cases filed

/-- A survey finds that a reference breaks down exactly if it does. -/
theorem Sound.find_eq_broken (sound : job.Sound survey) {problem : Problem} :
    survey.find job.around home.location reference = .broken problem ↔
      job.broken? home reference = some problem := by
  rw [Survey.find_eq, broken?]
  cases address : addressOf job.around home.location (splitReference reference).1 with
  | own => exact iff_of_false (survey.findAt_ne_broken _ _ _) (by rintro ⟨⟩)
  | disabled => exact iff_of_false (by rintro ⟨⟩) (by rintro ⟨⟩)
  | faulty fault => exact iff_of_false (by rintro ⟨⟩) (by rintro ⟨⟩)
  | other other =>
      dsimp only
      cases there : survey.documents.lookup other with
      | some root =>
          have read : job.fault? other = none :=
            job.fault?_of_document (sound.documents other root there)
          rw [read]
          exact iff_of_false (survey.findAt_ne_broken _ _ _) (by rintro ⟨⟩)
      | none =>
          rw [job.fault?_of_unknown (sound.unknown there)]
          cases job.around.content other with
          | error problem => exact Lookup.problem?_eq_some.symm
          | ok value => exact iff_of_false (by rintro ⟨⟩) (by rintro ⟨⟩)

theorem Sound.unbroken_of_found (sound : job.Sound survey) {key : String}
    (found : survey.find job.around home.location reference = .found key) :
    job.broken? home reference = none := by
  refine Option.eq_none_iff_forall_ne_some.mpr fun problem broken => ?_
  rw [sound.find_eq_broken.mpr broken] at found
  cases found

theorem Entered.find_ne_broken (entered : job.Entered survey home reference)
    (sound : job.Sound survey) (problem : Problem) :
    survey.find job.around home.location reference ≠ .broken problem := by
  intro found
  rw [sound.find_eq_broken, entered.unbroken] at found
  cases found

/-- If keys agree, a reference that was entered is found exactly if it leads somewhere. -/
theorem Sound.find_iff (sound : job.Sound survey) (agree : job.KeysAgree) (met : job.Met home)
    (inside : reference ∈ referencesOf home.value) (entered : job.Entered survey home reference)
    (key : String) :
    survey.find job.around home.location reference = .found key ↔
      job.link? home reference = some key :=
  ⟨sound.link_of_found agree met inside, entered.found_of_link⟩

end Job

end ApiCompiler.Loading
