import ApiCompiler.Proofs.Loading.Follow
import ApiCompiler.Proofs.Loading.Walk
import ApiCompiler.Proofs.World.Failing

/-!
How the loading of a description fails. A reference into another document is kept if there is something
wrong with that document, unless it is something that nobody handles.
-/

namespace ApiCompiler.Loading

open Openapi

/-! Documents that cannot be read. -/

/--
Why there is no tree at a location: there is no text, or none of the right form, or the text is no text
or holds a value that cannot be; or it cannot be told whether there is a file, or the address is none.
-/
inductive IsContentFault (location : String) : Problem → Prop
  | load (cause : Option Cause) : IsContentFault location (.declared (.load location cause))
  | presence (fault : DiskFault) : IsContentFault location (.undeclared (.disk fault))
  | webAddress (text : String) : IsContentFault location (.undeclared (.webAddress text))
  | undecodable (fault : Text.Utf8Fault) : IsContentFault location (.undeclared (.undecodable fault))
  | digits (count : Nat) : IsContentFault location (.undeclared (.digits count))
  | calendar (fault : CalendarFault) : IsContentFault location (.undeclared (.calendar fault))
  | badNumber (base : Nat) (text : String) :
      IsContentFault location (.undeclared (.badNumber base text))
  | badFraction (text : String) : IsContentFault location (.undeclared (.badFraction text))
  | badCharacter : IsContentFault location (.undeclared .badCharacter)
  | badWord (text : String) : IsContentFault location (.undeclared (.badWord text))
  | noNumber : IsContentFault location (.undeclared .noNumber)
  | noDate : IsContentFault location (.undeclared .noDate)

section Content

variable (location : String)

theorem toProblem_fault (fault : Yaml.Fault) :
    IsContentFault location (fault.toProblem (.declared (.load location (some .yaml)))) := by
  cases fault with
  | malformed => exact .load _
  | calendar fault => exact .calendar fault
  | number base text => exact .badNumber base text
  | fraction text => exact .badFraction text
  | digits count => exact .digits count
  | character => exact .badCharacter
  | word text => exact .badWord text
  | noNumber => exact .noNumber
  | noDate => exact .noDate

theorem parse_fails (readYaml : String → Except Yaml.Fault Value) (isYaml : Bool) (text : String) :
    FailsWith (IsContentFault location) (parse readYaml isYaml location text) := by
  cases isYaml with
  | true =>
      rw [parse, if_pos rfl]
      cases readYaml text with
      | ok value => exact .ok value
      | error fault => exact .error (toProblem_fault location fault)
  | false =>
      rw [parse, if_neg Bool.false_ne_true]
      split
      · exact .ok _
      · exact .error (.digits _)
      · exact .error (.load _)

theorem decodeText_fails (bytes : ByteArray) :
    FailsWith (IsContentFault location) (decodeText bytes) := by
  rw [decodeText]
  split
  · exact .ok _
  · exact .error (.undecodable _)

theorem content_fails (world : World) (followsRedirections : Bool) :
    FailsWith (IsContentFault location) (content world followsRedirections location) := by
  rw [content]
  split
  · rw [webContent]
    split
    · exact .error (.webAddress _)
    · exact .error (.load _)
    · exact parse_fails location _ _ _
  · rw [fileContent]
    split
    · exact .error (.presence _)
    · exact .error (.load _)
    · split
      · exact .error (.load _)
      · exact (decodeText_fails location _).bind fun text => parse_fails location _ _ text

end Content

/-! The expansion of a document that was read. -/

/--
What goes wrong while references are followed: a limit is exceeded, or one of them leads to a document
with which something is wrong that nobody handles.
-/
inductive IsFollowingFault (around : Surroundings) : Problem → Prop
  | exhausted : IsFollowingFault around (.undeclared .exhausted)
  | unhandled {location : String} {problem : Problem}
      (unread : around.content location = .error problem)
      (broken : Lookup.ofProblem problem = .broken problem) : IsFollowingFault around problem

section Following

variable (around : Surroundings)

/-- Nothing else goes wrong in a computation. -/
def Lasts {σ : Type} (α : Type) (x : ExceptT Problem (StateM σ) α) : Prop :=
  ∀ state, FailsWith (IsFollowingFault around) (x.run state).1

variable {around}

theorem find_broken {survey : Survey} {location : Option String} {reference : String}
    {problem : Problem} (found : survey.find around location reference = .broken problem) :
    IsFollowingFault around problem := by
  rw [Survey.find] at found
  dsimp only at found
  split at found
  · exact absurd found (survey.findAt_ne_broken _ _ _)
  · cases found
  · cases found
  · split at found
    · exact absurd found (survey.findAt_ne_broken _ _ _)
    · rename_i unread
      cases Lookup.eq_of_ofProblem found
      exact .unhandled unread found
    · cases found

namespace Lasts

variable {σ α β : Type}

theorem bind {x : ExceptT Problem (StateM σ) α} {f : α → ExceptT Problem (StateM σ) β}
    (begun : Lasts around α x) (rest : ∀ a, Lasts around β (f a)) : Lasts around β (x >>= f) := by
  intro state
  have known := begun state
  rw [run_bind]
  rcases ran : x.run state with ⟨result, after⟩
  rw [ran] at known
  cases result with
  | ok a => exact rest a after
  | error problem => exact .error (known problem rfl)

theorem keeps (around : Surroundings) (σ : Type) :
    Keeps (n := Id) fun α (x : ExceptT Problem (StateM σ) α) _ => Lasts around α x where
  pure a _ := .ok a
  bind begun rest := begun.bind rest

theorem overlay {siblings : ExceptT Problem (StateM σ) (Members Expansion)}
    (lasts : Lasts around _ siblings) (node : Members Value) (expansion : Expansion) :
    Lasts around _ (overlay node siblings expansion) :=
  (keeps around σ).overlay (y := ([] : Members Expansion)) lasts expansion

theorem look (root : Value) (location : Option String) (reference : String) :
    Lasts around _ (Survey.look around root location reference) := by
  intro survey
  rw [Survey.look_run]
  dsimp only
  split
  · rename_i found
    exact .error (find_broken found)
  · exact .ok _

theorem lookAll (home : Target) : (references : List String) →
    Lasts around _ (Survey.lookAll around home references)
  | [] => fun _ => .ok _
  | reference :: rest => by
      refine (look home.root home.location reference).bind fun lookup => ?_
      split
      · exact (lookAll home rest).bind fun _ _ => .ok _
      · exact lookAll home rest

theorem exploreTarget (key : String) (target : Target) :
    Lasts around _ (Survey.exploreTarget around key target) :=
  (lookAll target _).bind fun _ => .bind (fun _ => .ok _) fun _ _ => .ok _

theorem explore (limit : Nat) (pending : List String) :
    Lasts around _ (Survey.explore around limit pending) := by
  induction limit generalizing pending with
  | zero =>
      cases pending with
      | nil => exact fun _ => .ok _
      | cons key pending => exact fun _ => .error .exhausted
  | succ limit ih =>
      cases pending with
      | nil => exact fun _ => .ok _
      | cons key pending =>
          refine .bind (fun _ => .ok _) fun survey => ?_
          split
          · exact (exploreTarget key _).bind fun _ => ih _
          · exact ih pending

theorem keep (node : Members Value) (reference : String) {lookup : Lookup}
    (known : ∀ problem, lookup = .broken problem → IsFollowingFault around problem) :
    Lasts around _ (Inlining.keep node reference lookup) := by
  cases lookup with
  | broken problem => exact fun _ => .error (known problem rfl)
  | found key => exact fun _ => .ok _
  | external => exact fun _ => .ok _
  | unloadable => exact fun _ => .ok _
  | dangling message => exact fun _ => .ok _

theorem truncate (key reference : String) (target : Target) :
    Lasts around _ (Inlining.truncate key reference target) := by
  intro shelf
  rw [Inlining.truncate_run]
  split <;> exact .ok _

theorem expandTarget {survey : Survey} {follow : Target → Follow Inlining} {key : String}
    {target : Target} (walked : Lasts around _
      (walk (follow target) (some ⟨survey.cycleOf key, [key], true⟩) target.value)) :
    Lasts around _ (Inlining.expandTarget survey follow key target) := by
  intro shelf
  rw [Inlining.expandTarget_run]
  split
  · exact .ok _
  · have known := walked shelf
    split <;> rename_i ran <;> rw [ran] at known
    · exact .ok _
    · exact .error (known _ rfl)

end Lasts

theorem walk_followIn_lasts (survey : Survey) (depth : Nat) (home : Target) (scope : Scope)
    (value : Value) :
    Lasts around _ (walk (Inlining.followIn around survey depth home) (some scope) value) := by
  induction depth generalizing home scope value with
  | zero =>
      refine walk_holds (Lasts.keeps around Shelf) (fun _ _ (_ : True) => trivial) ?_ trivial
      exact fun _ _ _ _ _ _ _ _ => .error .exhausted
  | succ depth ih =>
      -- Inside a target there always is a scope.
      let given (scope : Option Scope) : Prop := scope.isSome
      have here : given (some scope) := rfl
      refine walk_holds (Lasts.keeps around Shelf) (fun scope name some => ?_) ?_ here
      · exact (Option.isSome_map ..).trans some
      · intro reference _ scope node siblings given lasts
        obtain ⟨scope, rfl⟩ := Option.isSome_iff_exists.mp given
        rcases Classical.em (∃ key, survey.find around home.location reference = .found key) with
          ⟨key, found⟩ | lost
        · cases filed : survey.target? key with
          | none =>
              rw [Inlining.followIn_of_unfiled found filed]
              exact fun _ => .ok _
          | some target =>
              rw [Inlining.followIn_of_found found filed]
              refine Lasts.bind ?_ fun expansion => lasts.overlay node expansion
              split
              · exact .expandTarget (ih target _ _)
              · split
                · exact ih target _ _
                · exact .truncate _ _ _
        · rw [Inlining.followIn_of_lost fun key found => lost ⟨key, found⟩]
          exact .keep _ _ fun _ => find_broken

theorem Lasts.expand (survey : Survey) (key : String) (target : Target) :
    Lasts around _ (Inlining.expand around survey key target) :=
  .expandTarget (walk_followIn_lasts survey _ target _ _)

theorem Lasts.ofInlining {α : Type} {x : Inlining α} (lasts : Lasts around α x) :
    Lasts around α (Expanding.ofInlining x) := by
  intro bench
  rw [Expanding.ofInlining_run]
  exact lasts bench.shelf

theorem Lasts.ofSurveying {α : Type} {x : Surveying α} (lasts : Lasts around α x) :
    Lasts around α (Expanding.ofSurveying x) := by
  intro bench
  rw [Expanding.ofSurveying_run]
  exact lasts bench.survey

theorem followRoot_lasts (limit : Nat) (root : Value) (location : Option String)
    (scope : Option Scope) (node : Members Value) (reference : String)
    {siblings : Expanding (Members Expansion)} (lasts : Lasts around _ siblings) :
    Lasts around _
      (Expanding.followRoot around limit root location scope node reference siblings) := by
  intro bench
  rw [Expanding.followRoot_run]
  generalize bench.survey.enter around root location reference = survey
  dsimp only
  split
  · rename_i key _
    have explored : FailsWith (IsFollowingFault around) ((Survey.explore around limit [key]).run survey).1 :=
      Lasts.explore limit [key] survey
    split <;> rename_i ran <;> rw [ran] at explored
    · exact .error (explored _ rfl)
    · split
      · exact .ok _
      · refine Lasts.bind (Lasts.ofInlining (.expand _ key _)) (fun expansion => ?_) _
        exact lasts.overlay node expansion
  · exact Lasts.ofInlining (.keep node reference fun _ => find_broken) _

theorem document_lasts (limit : Nat) (root : Value) (location : Option String) :
    Lasts around _ (Expanding.document around limit root location) :=
  walk_holds (Lasts.keeps around Bench) (fun _ _ (_ : True) => trivial)
    (fun reference _ scope node _ _ lasts =>
      followRoot_lasts limit root location scope node reference lasts) trivial

theorem dereference_fails (document : Value) (location : Option String) (work : Work) :
    FailsWith (IsFollowingFault (surroundings work))
      ((dereference document location).run work).1 := by
  rw [dereference, dereferenceWithin_fst]
  exact document_lasts _ _ _ _

end Following

/-! Descriptions. -/

/-- What is wrong with a document that is read in the course of a run. -/
def Unread (work : Work) (location : String) (problem : Problem) : Prop :=
  content work.world work.loader.followsRedirections location = .error problem ∧
    IsContentFault location problem

/--
How the description at a source fails to load: its own document has no place or cannot be read, or it is
no description that is supported, or has a version with too many digits to be told; or there is something
wrong with another document that nobody handles where it is referred to, or a limit is exceeded.
-/
inductive IsLoadingFault (work : Work) (source : String) : Problem → Prop
  | address {fault : UrlFault}
      (nowhere : locationOf work.world.disk.workingDirectory source = .error fault) :
      IsLoadingFault work source (.undeclared (.address fault))
  | content {location : String} {problem : Problem}
      (place : locationOf work.world.disk.workingDirectory source = .ok location)
      (unread : Unread work location problem) : IsLoadingFault work source problem
  | invalid (issues : List String) :
      IsLoadingFault work source (.declared (.validation source issues))
  | unsupported (construct : String) (suggestion : Option String) :
      IsLoadingFault work source (.declared (.unsupported construct suggestion))
  | untellable : IsLoadingFault work source (.undeclared (.unwritable .digits))
  | reference {location : String} {problem : Problem} (unread : Unread work location problem)
      (unhandled : Lookup.ofProblem problem = .broken problem) : IsLoadingFault work source problem
  | exhausted : IsLoadingFault work source (.undeclared .exhausted)

variable (work : Work) (source : String)

theorem checkVersion_fails (document : Value) :
    FailsWith (IsLoadingFault work source) (checkVersion document source) := by
  rw [checkVersion.eq_def]
  split
  · split
    · split
      · exact .error .untellable
      · exact .error (.unsupported _ _)
    · dsimp only
      split
      · exact .error .untellable
      · split
        · exact .ok _
        · exact .error (.unsupported _ _)
  · exact .error (.invalid _)

theorem validate_fails (expansion : Expansion) :
    FailsWith (IsLoadingFault work source) (validate expansion source) := by
  rw [validate]
  split
  · exact .ok _
  · exact .error (.invalid _)

/-- Reading a document finds what is at its location, and leaves the world as it is. -/
theorem loadRaw_fails (location : String) :
    FailsWith (Unread work location) ((loadRaw location).run work).1 ∧
      surroundings ((loadRaw location).run work).2 = surroundings work := by
  rw [loadRaw_run]
  split
  · exact ⟨.ok _, rfl⟩
  · split
    · rename_i problem unread
      exact ⟨.error ⟨unread, content_fails _ _ _ problem unread⟩, rfl⟩
    · exact ⟨.ok _, rfl⟩

theorem IsFollowingFault.toLoading {problem : Problem}
    (fault : IsFollowingFault (surroundings work) problem) :
    IsLoadingFault work source problem := by
  cases fault with
  | exhausted => exact .exhausted
  | unhandled unread broken =>
      rw [surroundings_content] at unread
      exact .reference ⟨unread, content_fails _ _ _ _ unread⟩ broken

/--
Loading fails in the ways that are declared, or as its own document cannot be read or its version told,
or by exceeding a limit. Of what is wrong with the documents it refers to only that comes out which
nobody handles.
-/
theorem load_fails : FailsWith (IsLoadingFault work source) ((load source).run work).1 := by
  rw [load, run_bind, run_get]
  dsimp only
  split
  · rename_i nowhere
    exact .error (.address nowhere)
  · rename_i location place
    rw [loadAt, run_bind]
    obtain ⟨raw, same⟩ := loadRaw_fails work location
    split <;> rename_i ran <;> rw [ran] at raw same
    · rename_i document after
      have checked := checkVersion_fails work source document
      split <;> rename_i version <;> rw [version] at checked
      · exact .error (checked _ rfl)
      · have fails := dereference_fails document (some location) after
        rw [same] at fails
        rw [run_bind]
        split <;> rename_i expanded
        · split <;> rename_i valid
          · exact .ok _
          · exact .error (validate_fails work source _ _ valid)
        · rw [expanded] at fails
          exact .error ((fails _ rfl).toLoading work source)
    · exact .error (.content place (raw _ rfl))

variable {work source} {location : String}

/-- What is wrong with its own document does come out. -/
theorem load_of_unread {problem : Problem}
    (place : locationOf work.world.disk.workingDirectory source = .ok location)
    (new : work.loader.documents.lookup location = none)
    (unread : content work.world work.loader.followsRedirections location = .error problem) :
    (load source).run work = (.error problem, work) := by
  rw [load, run_bind, run_get]
  dsimp only
  rw [place]
  dsimp only
  rw [loadAt, run_bind, loadRaw_run, new, unread]

/-- So it is with a file whose bytes are no text. -/
theorem load_undecodable {bytes : ByteArray}
    (place : locationOf work.world.disk.workingDirectory source = .ok location)
    (isFile : Url.isWeb location = false)
    (new : work.loader.documents.lookup location = none)
    (present : work.world.presence (.ofText location) = .ok true)
    (read : work.world.read (.ofText location) = .ok bytes)
    (noText : String.fromUTF8? bytes = none) :
    ∃ fault, (load source).run work = (.error (.undeclared (.undecodable fault)), work) := by
  obtain ⟨fault, undecodable⟩ : ∃ fault, Text.decodeUtf8 bytes = .error fault := by
    rw [Text.decodeUtf8, noText]
    exact ⟨_, rfl⟩
  refine ⟨fault, load_of_unread place new ?_⟩
  rw [content, isFile, if_neg Bool.false_ne_true, fileContent, present]
  dsimp only
  rw [read]
  dsimp only
  rw [decodeText, undecodable]
  rfl

/-- And so it is with a document of which it cannot be told whether it is there. -/
theorem load_untold {fault : DiskFault}
    (place : locationOf work.world.disk.workingDirectory source = .ok location)
    (isFile : Url.isWeb location = false)
    (new : work.loader.documents.lookup location = none)
    (untold : work.world.presence (.ofText location) = .error fault) :
    (load source).run work = (.error (.undeclared (.disk fault)), work) := by
  refine load_of_unread place new ?_
  rw [content, isFile, if_neg Bool.false_ne_true, fileContent, untold]

end ApiCompiler.Loading
