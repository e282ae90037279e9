import Mathlib.Logic.Relation
import ApiCompiler.Loading.Survey

/-!
Where the references of documents lead, whatever order they are followed in.
-/

namespace ApiCompiler.Loading

open Relation

namespace Lookup

def key? : Lookup → Option String
  | .found key => some key
  | _ => none

def problem? : Lookup → Option Problem
  | .broken problem => some problem
  | _ => none

theorem key?_eq_some {lookup : Lookup} {key : String} :
    lookup.key? = some key ↔ lookup = .found key := by
  cases lookup <;> simp [key?]

theorem problem?_eq_some {lookup : Lookup} {problem : Problem} :
    lookup.problem? = some problem ↔ lookup = .broken problem := by
  cases lookup <;> simp [problem?]

theorem ofProblem_ne_found (problem : Problem) (key : String) : ofProblem problem ≠ .found key := by
  rw [ofProblem.eq_def]
  split
  · nofun
  · nofun
  · split <;> nofun

theorem eq_of_ofProblem {problem other : Problem} (broken : ofProblem problem = .broken other) :
    other = problem := by
  rw [ofProblem.eq_def] at broken
  split at broken
  · cases broken
  · cases broken
    rfl
  · split at broken <;> cases broken
    rfl

/-- What is wrong with a document, if following a reference to it breaks down with that. -/
def unhandled? : Except Problem Value → Option Problem
  | .ok _ => none
  | .error problem => (ofProblem problem).problem?

end Lookup

theorem Survey.findAt_ne_broken (survey : Survey) (location : Option String) (pointer : String)
    (problem : Problem) : survey.findAt location pointer ≠ .broken problem := by
  rw [findAt]
  split <;> nofun

/-- A document with its location, and what is known of others: some documents were read before. -/
structure Job where
  around : Surroundings
  known : List (String × Value)
  document : Value
  location : Option String

/-! The references in parts of a value. -/

theorem referencesOf_find? {name : String} {members : Members Value} {value : Value}
    (found : members.find? name = some value) :
    (referencesOf value).Sublist (referencesOfMembers members) := by
  induction members with
  | nil => cases found
  | cons first members ih =>
      obtain ⟨key, old⟩ := first
      rw [Members.find?] at found
      rw [referencesOfMembers]
      split at found
      · cases found
        exact List.sublist_append_left ..
      · exact (ih found).trans (List.sublist_append_right ..)

theorem mem_referencesOf_object {members : Members Value} {reference : String}
    (refers : reference? members = some reference) :
    reference ∈ referencesOf (.object members) := by
  rw [referencesOf, refers]
  exact List.mem_cons_self

theorem referencesOf_getElem? {items : List Value} {i : Nat} {value : Value}
    (found : items[i]? = some value) :
    (referencesOf value).Sublist (referencesOfItems items) := by
  induction items generalizing i with
  | nil => cases found
  | cons first items ih =>
      rw [referencesOfItems]
      cases i with
      | zero =>
          cases found
          exact List.sublist_append_left ..
      | succ i => exact (ih found).trans (List.sublist_append_right ..)

theorem referencesOf_step? {value part : Value} {segment : List Char}
    (found : Pointer.step? value segment = some part) :
    (referencesOf part).Sublist (referencesOf value) := by
  cases value with
  | scalar s => cases found
  | list items =>
      obtain ⟨position, -, found⟩ := Option.bind_eq_some_iff.mp found
      rw [Pointer.item?] at found
      generalize (if position < 0 then position + items.length else position) = index at found
      split at found
      · cases found
      · rw [referencesOf]
        exact referencesOf_getElem? found
  | object members =>
      rw [referencesOf]
      exact (referencesOf_find? found).trans (List.sublist_append_right ..)

theorem referencesOf_resolve? {root value : Value} {pointer : List Char}
    (found : Pointer.resolve? root pointer = some value) :
    (referencesOf value).Sublist (referencesOf root) := by
  rw [Pointer.resolve?] at found
  revert found
  generalize Pointer.segments pointer = segments
  intro found
  induction segments generalizing root with
  | nil =>
      cases found
      exact List.Sublist.refl _
  | cons segment segments ih =>
      rw [List.foldlM_cons] at found
      obtain ⟨part, step, rest⟩ := Option.bind_eq_some_iff.mp found
      exact (ih rest).trans (referencesOf_step? step)

namespace Job

variable (job : Job)

def document? (location : String) : Option Value :=
  (job.known.lookup location).or (job.around.content location).toOption

/-- The document that a reference points into, its location, and the pointer. -/
def place? (home : Target) (reference : String) : Option (Value × Option String × String) :=
  match addressOf job.around home.location (splitReference reference).1 with
  | .own => some (home.root, home.location, (splitReference reference).2)
  | .other other =>
      (job.document? other).map fun root => (root, some other, (splitReference reference).2)
  | .disabled | .faulty _ => none

/-- What is wrong with a document that nobody handles where a reference to it is followed. -/
def fault? (location : String) : Option Problem :=
  match job.known.lookup location with
  | some _ => none
  | none => Lookup.unhandled? (job.around.content location)

/-- What following a reference breaks down with, if it does. -/
def broken? (home : Target) (reference : String) : Option Problem :=
  match addressOf job.around home.location (splitReference reference).1 with
  | .other other => job.fault? other
  | .own | .disabled | .faulty _ => none

/-- The key that a reference is filed under, also if its pointer leads nowhere. -/
def key? (home : Target) (reference : String) : Option String :=
  (job.place? home reference).map fun place => targetKey place.2.1 place.2.2

/-- What a reference written in the document of a target leads to. -/
def target? (home : Target) (reference : String) : Option Target :=
  (job.place? home reference).bind fun place =>
    (Pointer.resolve? place.1 place.2.2.toList).map fun value => ⟨value, place.1, place.2.1⟩

/-- The key of a reference that leads somewhere. -/
def link? (home : Target) (reference : String) : Option String :=
  (job.target? home reference).bind fun _ => job.key? home reference

def linksOf (home : Target) (references : List String) : List String :=
  references.filterMap (job.link? home)

def links (target : Target) : List String :=
  job.linksOf target (referencesOf target.value)

/-- A target holds a reference to another one. -/
def Refers (home target : Target) : Prop :=
  ∃ reference ∈ referencesOf home.value, job.target? home reference = some target

def start : Target :=
  ⟨job.document, job.document, job.location⟩

/-- The document, and what its references lead to. -/
def Met (target : Target) : Prop :=
  ReflTransGen job.Refers job.start target

/-- Following a reference breaks down, or following one that is in what it leads to. -/
def BrokenAt (home : Target) (reference : String) (problem : Problem) : Prop :=
  job.broken? home reference = some problem ∨
    ∃ target, job.target? home reference = some target ∧
      ∃ other, ReflTransGen job.Refers target other ∧
        ∃ further ∈ referencesOf other.value, job.broken? other further = some problem

def BrokenIn (home : Target) (value : Value) (problem : Problem) : Prop :=
  ∃ reference ∈ referencesOf value, job.BrokenAt home reference problem

/-- References that are met and filed under one key all lead somewhere, or none of them does. -/
def KeysAgree : Prop :=
  ∀ first second, job.Met first → job.Met second →
    ∀ one ∈ referencesOf first.value, ∀ other ∈ referencesOf second.value, ∀ key,
      job.key? first one = some key → job.key? second other = some key →
        (job.target? first one).isSome → (job.target? second other).isSome

variable {job}

theorem Met.refers {home target : Target} (met : job.Met home) (refers : job.Refers home target) :
    job.Met target :=
  ReflTransGen.tail met refers

theorem brokenIn_of_reached {home target : Target} (reached : ReflTransGen job.Refers home target)
    {reference : String} (inside : reference ∈ referencesOf target.value) {problem : Problem}
    (broken : job.broken? target reference = some problem) :
    job.BrokenIn home home.value problem := by
  rcases ReflTransGen.cases_head reached with rfl | ⟨next, ⟨first, written, leads⟩, onward⟩
  · exact ⟨reference, inside, .inl broken⟩
  · exact ⟨first, written, .inr ⟨next, leads, target, onward, reference, inside, broken⟩⟩

theorem place?_of_own {home : Target} {reference : String}
    (address : addressOf job.around home.location (splitReference reference).1 = .own) :
    job.place? home reference = some (home.root, home.location, (splitReference reference).2) := by
  rw [place?, address]

theorem place?_of_other {home : Target} {reference other : String}
    (address : addressOf job.around home.location (splitReference reference).1 = .other other) :
    job.place? home reference = (job.document? other).map fun root =>
      (root, some other, (splitReference reference).2) := by
  rw [place?, address]

theorem fault?_of_unknown {location : String} (new : job.known.lookup location = none) :
    job.fault? location = Lookup.unhandled? (job.around.content location) := by
  rw [fault?, new]

theorem fault?_of_document {location : String} {root : Value}
    (read : job.document? location = some root) : job.fault? location = none := by
  rw [document?] at read
  rw [fault?]
  cases known : job.known.lookup location with
  | some _ => rfl
  | none =>
      rw [known, Option.none_or] at read
      cases content : job.around.content location with
      | ok value => rfl
      | error problem => rw [content] at read; cases read

theorem broken?_of_place {home : Target} {reference : String}
    {place : Value × Option String × String} (found : job.place? home reference = some place) :
    job.broken? home reference = none := by
  rw [place?] at found
  rw [broken?]
  split at found
  · rename_i address
    rw [address]
  · rename_i other address
    obtain ⟨root, there, -⟩ := Option.map_eq_some_iff.mp found
    rw [address]
    exact job.fault?_of_document there
  · cases found
  · cases found

theorem link?_eq_some {home : Target} {reference key : String} :
    job.link? home reference = some key ↔
      (job.target? home reference).isSome ∧ job.key? home reference = some key := by
  rw [link?]
  cases job.target? home reference with
  | none => simp
  | some target => simp

theorem broken?_of_link {home : Target} {reference key : String}
    (link : job.link? home reference = some key) : job.broken? home reference = none := by
  obtain ⟨place, found, -⟩ := Option.map_eq_some_iff.mp (link?_eq_some.mp link).2
  exact broken?_of_place found

theorem exists_link {home target : Target} {reference : String}
    (leads : job.target? home reference = some target) :
    ∃ key, job.link? home reference = some key := by
  obtain ⟨place, found, -⟩ := Option.bind_eq_some_iff.mp leads
  rw [link?, leads, key?, found]
  exact ⟨_, rfl⟩

theorem link?_eq_none {home : Target} {reference : String}
    (lost : job.link? home reference = none) : job.target? home reference = none := by
  cases leads : job.target? home reference with
  | none => rfl
  | some target =>
      obtain ⟨key, link⟩ := job.exists_link leads
      rw [lost] at link
      cases link

theorem mem_linksOf {home : Target} {references : List String} {key : String} :
    key ∈ job.linksOf home references ↔
      ∃ reference ∈ references, job.link? home reference = some key :=
  List.mem_filterMap

theorem place?_pointer {home : Target} {reference : String}
    {place : Value × Option String × String} (found : job.place? home reference = some place) :
    place.2.2 = (splitReference reference).2 := by
  rw [place?] at found
  split at found
  · cases found
    rfl
  · obtain ⟨root, -, rfl⟩ := Option.map_eq_some_iff.mp found
    rfl
  · cases found
  · cases found

theorem target?_eq_some {home target : Target} {reference : String}
    (leads : job.target? home reference = some target) :
    (target.root = home.root ∧ target.location = home.location ∨
        ∃ other, target.location = some other ∧ job.document? other = some target.root) ∧
      (referencesOf target.value).Sublist (referencesOf target.root) := by
  obtain ⟨⟨root, location, pointer⟩, place, found⟩ := Option.bind_eq_some_iff.mp leads
  obtain ⟨value, resolved, rfl⟩ := Option.map_eq_some_iff.mp found
  refine ⟨?_, referencesOf_resolve? resolved⟩
  cases address : addressOf job.around home.location (splitReference reference).1 with
  | own =>
      rw [place?_of_own address] at place
      cases place
      exact .inl ⟨rfl, rfl⟩
  | other other =>
      rw [place?_of_other address] at place
      obtain ⟨document, there, same⟩ := Option.map_eq_some_iff.mp place
      cases same
      exact .inr ⟨other, rfl, there⟩
  | disabled => rw [place?, address] at place; cases place
  | faulty fault => rw [place?, address] at place; cases place

/-- A target that is met is part of the document, or of another one that can be read. -/
theorem Met.source {target : Target} (met : job.Met target) :
    (target.root = job.document ∧ target.location = job.location ∨
        ∃ other, target.location = some other ∧ job.document? other = some target.root) ∧
      (referencesOf target.value).Sublist (referencesOf target.root) := by
  induction met with
  | refl => exact ⟨.inl ⟨rfl, rfl⟩, List.Sublist.refl _⟩
  | tail _ refers ih =>
      obtain ⟨reference, -, leads⟩ := refers
      obtain ⟨source, within⟩ := target?_eq_some leads
      refine ⟨?_, within⟩
      rcases source with ⟨root, location⟩ | elsewhere
      · rw [root, location]
        exact ih.1
      · exact .inr elsewhere

end Job

end ApiCompiler.Loading
