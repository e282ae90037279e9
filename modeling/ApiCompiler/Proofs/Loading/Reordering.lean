import ApiCompiler.Proofs.Loading.Mirroring
import ApiCompiler.Proofs.Loading.Session
import ApiCompiler.Proofs.Loading.Whole

/-!
Documents whose objects have their members in another order are dereferenced to the same trees, but for
the order of members.
-/

namespace ApiCompiler.Loading

open Openapi Relation

/-- The same part of the same document, but for the order of members. -/
structure Target.Reorders (target target' : Target) : Prop where
  value : Reordered target.value target'.value
  root : Reordered target.root target'.root
  location : target'.location = target.location

namespace Job

/-- The same documents, but for the order of the members of their objects. -/
structure Reorders (job job' : Job) : Prop where
  document : Reordered job.document job'.document
  location : job'.location = job.location
  others : ∀ location, Option.Rel Reordered (job.document? location) (job'.document? location)
  faults : ∀ location, job'.fault? location = job.fault? location
  external : job'.around.followsExternal = job.around.followsExternal
  workingDirectory : job'.around.workingDirectory = job.around.workingDirectory

theorem Reorders.symm {job job' : Job} (reorders : job.Reorders job') : job'.Reorders job := by
  refine ⟨reorders.document.symm, reorders.location.symm, fun location => ?_,
    fun location => (reorders.faults location).symm, reorders.external.symm,
    reorders.workingDirectory.symm⟩
  have others := reorders.others location
  generalize job.document? location = one at others ⊢
  generalize job'.document? location = other at others ⊢
  cases others with
  | none => exact .none
  | some same => exact .some same.symm

variable {job job' : Job} (reorders : job.Reorders job') {home home' target : Target}
  {key : String} {reference : String}
include reorders

/-! Where references lead. -/

theorem Reorders.start : job.start.Reorders job'.start :=
  ⟨reorders.document, reorders.document, reorders.location⟩

theorem Reorders.addressOf (location : Option String) (address : String) :
    Loading.addressOf job'.around location address = Loading.addressOf job.around location address := by
  rw [Loading.addressOf, Loading.addressOf, reorders.external, reorders.workingDirectory]

theorem Reorders.place? (here : home.Reorders home') (reference : String) :
    Option.Rel (fun place place' => Reordered place.1 place'.1 ∧ place'.2 = place.2)
      (job.place? home reference) (job'.place? home' reference) := by
  have address : Loading.addressOf job'.around home'.location (splitReference reference).1 =
      Loading.addressOf job.around home.location (splitReference reference).1 := by
    rw [here.location, reorders.addressOf]
  rw [Job.place?, Job.place?, address]
  split
  · exact .some ⟨here.root, by rw [here.location]⟩
  · rename_i other _
    have others := reorders.others other
    generalize job.document? other = one at others ⊢
    generalize job'.document? other = another at others ⊢
    cases others with
    | none => exact .none
    | some same => exact .some ⟨same, rfl⟩
  · exact .none
  · exact .none

theorem Reorders.key? (here : home.Reorders home') (reference : String) :
    job'.key? home' reference = job.key? home reference := by
  have place := reorders.place? here reference
  rw [Job.key?, Job.key?]
  generalize job.place? home reference = one at place ⊢
  generalize job'.place? home' reference = other at place ⊢
  cases place with
  | none => rfl
  | some same => rw [Option.map_some, Option.map_some, same.2]

theorem Reorders.target? (here : home.Reorders home') (reference : String) :
    Option.Rel Target.Reorders (job.target? home reference) (job'.target? home' reference) := by
  have place := reorders.place? here reference
  rw [Job.target?, Job.target?]
  generalize job.place? home reference = one at place ⊢
  generalize job'.place? home' reference = other at place ⊢
  cases place with
  | none => exact .none
  | @some place place' same =>
      obtain ⟨root, location, pointer⟩ := place
      obtain ⟨root', _⟩ := place'
      obtain ⟨same, rfl⟩ := same
      have found := same.resolve? pointer.toList
      rw [Option.bind_some, Option.bind_some]
      dsimp only
      generalize Pointer.resolve? root pointer.toList = one at found ⊢
      generalize Pointer.resolve? root' pointer.toList = other at found ⊢
      cases found with
      | none => exact .none
      | some part => exact .some ⟨part, same, rfl⟩

theorem Reorders.link? (here : home.Reorders home') (reference : String) :
    job'.link? home' reference = job.link? home reference := by
  have leads := reorders.target? here reference
  rw [Job.link?, Job.link?, reorders.key? here]
  generalize job.target? home reference = one at leads ⊢
  generalize job'.target? home' reference = other at leads ⊢
  cases leads <;> rfl

theorem Reorders.broken? (here : home.Reorders home') (reference : String) :
    job'.broken? home' reference = job.broken? home reference := by
  rw [Job.broken?, Job.broken?, here.location, reorders.addressOf]
  split
  · exact reorders.faults _
  all_goals rfl

theorem Reorders.exists_target (here : home.Reorders home')
    (leads : job.target? home reference = some target) :
    ∃ target', job'.target? home' reference = some target' ∧ target.Reorders target' := by
  have found := reorders.target? here reference
  rw [leads] at found
  generalize job'.target? home' reference = other at found ⊢
  cases found with
  | some same => exact ⟨_, rfl, same⟩

theorem Reorders.met (met : job.Met target) : ∃ target', job'.Met target' ∧ target.Reorders target' := by
  induction met with
  | refl => exact ⟨job'.start, .refl, reorders.start⟩
  | tail _ refers ih =>
      obtain ⟨home', met, here⟩ := ih
      obtain ⟨reference, inside, leads⟩ := refers
      obtain ⟨target', leads', same⟩ := reorders.exists_target here leads
      exact ⟨target', met.refers ⟨reference, here.value.references _ inside, leads'⟩, same⟩

theorem Reorders.refers {other : Target} (here : home.Reorders home')
    (refers : ReflTransGen job.Refers home other) :
    ∃ other', ReflTransGen job'.Refers home' other' ∧ other.Reorders other' := by
  induction refers with
  | refl => exact ⟨home', .refl, here⟩
  | tail _ refers ih =>
      obtain ⟨middle', reached, same⟩ := ih
      obtain ⟨reference, inside, leads⟩ := refers
      obtain ⟨other', leads', same'⟩ := reorders.exists_target same leads
      exact ⟨other', reached.tail ⟨reference, same.value.references _ inside, leads'⟩, same'⟩

theorem Reorders.brokenAt {problem : Problem} (here : home.Reorders home')
    (broken : job.BrokenAt home reference problem) : job'.BrokenAt home' reference problem := by
  rcases broken with broken | ⟨target, leads, other, reached, further, inside, broken⟩
  · exact .inl ((reorders.broken? here reference).trans broken)
  · obtain ⟨target', leads', same⟩ := reorders.exists_target here leads
    obtain ⟨other', reached', same'⟩ := reorders.refers same reached
    exact .inr ⟨target', leads', other', reached', further, same'.value.references _ inside,
      (reorders.broken? same' further).trans broken⟩

theorem Reorders.whole (whole : job.Whole reference) : job'.Whole reference :=
  fun problem broken => whole problem (reorders.symm.brokenAt reorders.symm.start broken)

theorem Reorders.filed (filed : job.Filed key target) :
    ∃ target', job'.Filed key target' ∧ target.Reorders target' := by
  obtain ⟨home, met, reference, inside, named, leads⟩ := filed
  obtain ⟨home', met', here⟩ := reorders.met met
  obtain ⟨target', leads', same⟩ := reorders.exists_target here leads
  exact ⟨target', ⟨home', met', reference, here.value.references _ inside,
    (reorders.key? here reference).trans named, leads'⟩, same⟩

theorem Reorders.links {a b : String} (links : job.Links a b) : job'.Links a b := by
  obtain ⟨target, filed, leads⟩ := links
  obtain ⟨target', filed', same⟩ := reorders.filed filed
  obtain ⟨reference, inside, link⟩ := mem_linksOf.mp leads
  exact ⟨target', filed', mem_linksOf.mpr ⟨reference, same.value.references _ inside,
    (reorders.link? same reference).trans link⟩⟩

theorem Reorders.circle (key : String) : job'.circle key = job.circle key := by
  have links : job'.Links = job.Links := by
    funext a b
    exact propext ⟨reorders.symm.links, reorders.links⟩
  have same : job'.OnCircle = job.OnCircle := by
    funext a b
    rw [OnCircle, OnCircle, links]
  rw [Job.circle, Job.circle, same]

theorem Reorders.finite (finite : job.Finite) : job'.Finite := by
  obtain ⟨locations, all⟩ := finite
  refine ⟨locations, fun target' met location placed => ?_⟩
  obtain ⟨target, met', same⟩ := reorders.symm.met met
  exact all target met' location (same.location.trans placed)

/-! What references give way to. -/

omit reorders in
theorem withoutNested_reordered {value value' : Value} (same : Reordered value value') :
    Reordered (Inlining.withoutNested value) (Inlining.withoutNested value') := by
  cases same with
  | scalar s => exact .scalar s
  | list each => exact .list each
  | object distinct each moved =>
      exact (Reordered.object distinct each moved).filter fun _ _ _ => rfl

theorem Reorders.followAlone (depth : Nat) (here : home.Reorders home') :
    Mirrored (job.followAlone depth home) (job'.followAlone depth home') := by
  induction depth generalizing home home' with
  | zero => exact fun _ _ _ _ _ _ _ _ => .none _
  | succ depth ih =>
      intro scope node node' reference siblings siblings' same mirrors
      have link := reorders.link? here reference
      cases leads : job.link? home reference with
      | none =>
          rw [followAlone_of_lost leads, followAlone_of_lost (link.trans leads)]
          exact .some ⟨_, _, rfl, rfl, same⟩
      | some key =>
          obtain ⟨target, found⟩ := Option.isSome_iff_exists.mp (link?_eq_some.mp leads).1
          obtain ⟨target', found', there⟩ := reorders.exists_target here found
          rw [followAlone_of_link leads found, followAlone_of_link (link.trans leads) found']
          suffices inlined : Mirrors SameTree _ _ from
            inlined.bind fun _ _ tree => tree.overlay same.length mirrors
          rw [instead, instead, inPlace, inPlace, reorders.circle]
          split
          · exact walk_mirrors (ih there) _ target.value there.value
          · split
            · exact walk_mirrors (ih there) _ target.value there.value
            · exact .some ⟨_, _, rfl, rfl, withoutNested_reordered there.value⟩

theorem Reorders.document_mirrors (depth : Nat) :
    Mirrors SameTree (walk (job.followWhole depth) none job.document)
      (walk (job'.followWhole depth) none job'.document) := by
  refine walk_mirrors (fun scope node node' reference siblings siblings' same mirrors => ?_) none
    job.document reorders.document
  intro expansion found
  obtain ⟨whole, found⟩ := followWhole_eq_some found
  rw [followWhole_of_whole (reorders.whole whole)]
  exact reorders.followAlone depth reorders.start scope node node' reference siblings siblings' same
    mirrors expansion found

theorem Reorders.sameTree (plain : job.Plain) (plain' : job'.Plain) {limit limit' : Nat}
    {expansion expansion' : Expansion} {after after' : Bench}
    (ran : (Expanding.document job.around limit job.document job.location).run
      { survey := { documents := job.known } } = (.ok expansion, after))
    (ran' : (Expanding.document job'.around limit' job'.document job'.location).run
      { survey := { documents := job'.known } } = (.ok expansion', after')) :
    SameTree expansion expansion' := by
  obtain ⟨depth, found⟩ := document_settles plain ran
  obtain ⟨depth', found'⟩ := document_settles plain' ran'
  have deeper := followWhole_mono (Nat.le_max_left depth depth') none expansion found
  have deeper' := followWhole_mono (Nat.le_max_right depth depth') none expansion' found'
  obtain ⟨other, given, same⟩ := reorders.document_mirrors _ expansion deeper
  rw [given] at deeper'
  cases deeper'
  exact same

end Job

/-! Loaders in worlds whose documents differ in the order of members. -/

/-- The same document but for the order of members, or the same problem. -/
inductive ReadsAlike : Except Problem Value → Except Problem Value → Prop
  | ok {value value' : Value} (same : Reordered value value') : ReadsAlike (.ok value) (.ok value')
  | error (problem : Problem) : ReadsAlike (.error problem) (.error problem)

/-- Two loaders at work that may read the same documents, but for the order of members. -/
structure Work.Reorders (work work' : Work) : Prop where
  truthful : Truthful (surroundings work) work.loader.documents
  truthful' : Truthful (surroundings work') work'.loader.documents
  contents : ∀ location, ReadsAlike ((surroundings work).content location)
    ((surroundings work').content location)
  external : work'.loader.followsExternal = work.loader.followsExternal
  workingDirectory : work'.world.disk.workingDirectory = work.world.disk.workingDirectory

/-- What is loaded is what can be read, and it is remembered. -/
theorem loadRaw_spec {before work : Work} {location : String} {document : Value}
    (truthful : Truthful (surroundings before) before.loader.documents)
    (loaded : (loadRaw location).run before = (.ok document, work)) :
    (surroundings before).content location = .ok document ∧
      surroundings work = surroundings before ∧
      Truthful (surroundings work) work.loader.documents := by
  have kept (documents : List (String × Value)) :
      surroundings { before with loader := { before.loader with documents } } =
        surroundings before := rfl
  rw [loadRaw_run] at loaded
  split at loaded
  · rename_i value listed
    cases loaded
    exact ⟨truthful location document listed, rfl, truthful⟩
  · split at loaded
    · cases loaded
    · rename_i value content
      cases loaded
      rw [kept, surroundings_content, content]
      refine ⟨rfl, rfl, truthful.append ?_⟩
      rw [surroundings_content, content]

theorem document?_eq_content {work : Work} {document : Value} {place : Option String}
    (truthful : Truthful (surroundings work) work.loader.documents) (location : String) :
    (work.job document place).document? location =
      ((surroundings work).content location).toOption := by
  rw [Job.document?]
  change (work.loader.documents.lookup location).or
    ((surroundings work).content location).toOption = _
  cases listed : work.loader.documents.lookup location with
  | none => rfl
  | some value =>
      rw [truthful location value listed]
      rfl

theorem fault?_eq_content {work : Work} {document : Value} {place : Option String}
    (truthful : Truthful (surroundings work) work.loader.documents) (location : String) :
    (work.job document place).fault? location =
      Lookup.unhandled? ((surroundings work).content location) := by
  cases listed : work.loader.documents.lookup location with
  | none => exact (work.job document place).fault?_of_unknown listed
  | some value =>
      have there : (work.job document place).document? location = some value :=
        congrArg (Option.or · _) listed
      rw [Job.fault?_of_document there, truthful location value listed]
      rfl

theorem Work.Reorders.job {before before' work work' : Work} {location : String}
    {document document' : Value} (reorders : before.Reorders before')
    (loaded : (loadRaw location).run before = (.ok document, work))
    (loaded' : (loadRaw location).run before' = (.ok document', work')) :
    (work.job document (some location)).Reorders (work'.job document' (some location)) := by
  obtain ⟨content, same, truthful⟩ := loadRaw_spec reorders.truthful loaded
  obtain ⟨content', same', truthful'⟩ := loadRaw_spec reorders.truthful' loaded'
  refine ⟨?_, rfl, fun other => ?_, fun other => ?_, ?_, ?_⟩
  · have here := reorders.contents location
    rw [content, content'] at here
    cases here with
    | ok same => exact same
  · have there := reorders.contents other
    rw [document?_eq_content truthful, document?_eq_content truthful', same, same']
    generalize (surroundings before).content other = one at there ⊢
    generalize (surroundings before').content other = another at there ⊢
    cases there with
    | ok same => exact .some same
    | error problem => exact .none
  · have there := reorders.contents other
    rw [fault?_eq_content truthful, fault?_eq_content truthful', same, same']
    generalize (surroundings before).content other = one at there ⊢
    generalize (surroundings before').content other = another at there ⊢
    cases there <;> rfl
  · change (surroundings work').followsExternal = (surroundings work).followsExternal
    rw [same, same']
    exact reorders.external
  · change (surroundings work').workingDirectory = (surroundings work).workingDirectory
    rw [same, same']
    exact reorders.workingDirectory

end ApiCompiler.Loading
