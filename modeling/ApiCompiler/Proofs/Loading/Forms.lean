import Mathlib.Data.List.Forall2
import ApiCompiler.Proofs.Loading.Follow
import ApiCompiler.Proofs.Loading.Targets

/-!
The form of what a walk gives: that of the value itself, but for what its references have become.
-/

namespace ApiCompiler.Loading

open Openapi

/-- What is known of what a reference has become: in a scope, its object, its text, and the result. -/
abbrev Becomes := Scope → Members Value → String → Expansion → Prop

mutual
/-- An expansion has the form of a value, and its references have become what is known. -/
def Forms (becomes : Becomes) (scope : Scope) : Value → Expansion → Prop
  | .scalar s, expansion => expansion = .scalar s
  | .list items, expansion =>
      ∃ expansions, expansion = .list expansions ∧ FormsItems becomes scope items expansions
  | .object members, expansion =>
      match reference? members with
      | some reference => becomes scope members reference expansion
      | none => ∃ own, expansion = .ofMembers own ∧ FormsMembers becomes scope members own

def FormsItems (becomes : Becomes) (scope : Scope) : List Value → List Expansion → Prop
  | [], expansions => expansions = []
  | item :: rest, expansions => ∃ first others, expansions = first :: others ∧
      Forms becomes scope item first ∧ FormsItems becomes scope rest others

def FormsMembers (becomes : Becomes) (scope : Scope) :
    List (Scalar × Value) → Members Expansion → Prop
  | [], own => own = []
  | (name, value) :: rest, own => ∃ first others, own = (name, first) :: others ∧
      Forms becomes (scope.within name) value first ∧ FormsMembers becomes scope rest others
end

/-- An object that refers to nothing itself. -/
def IsOwn (value : Value) (members : Members Value) : Prop :=
  value = .object members ∧ reference? members = none

/-- Something that stands where it is, rather than being referred to. -/
def InPlace (value : Value) : Prop :=
  ∀ members, value = .object members → reference? members = none

section Forms

variable {becomes becomes' : Becomes} {scope : Scope} {value : Value} {expansion : Expansion}

theorem Forms.of_own {members : Members Value} (own : IsOwn value members)
    (forms : Forms becomes scope value expansion) :
    ∃ members', expansion = .ofMembers members' ∧ FormsMembers becomes scope members members' := by
  obtain ⟨rfl, none⟩ := own
  rwa [Forms, none] at forms

theorem Forms.of_inPlace (forms : Forms becomes scope value expansion) (inPlace : InPlace value) :
    (∃ s, value = .scalar s ∧ expansion = .scalar s) ∨
      (∃ items expansions, value = .list items ∧ expansion = .list expansions ∧
        FormsItems becomes scope items expansions) ∨
      ∃ members own, value = .object members ∧ expansion = .ofMembers own ∧
        FormsMembers becomes scope members own := by
  cases value with
  | scalar s =>
      rw [Forms] at forms
      exact .inl ⟨s, rfl, forms⟩
  | list items =>
      rw [Forms] at forms
      obtain ⟨expansions, same, inside⟩ := forms
      exact .inr (.inl ⟨items, expansions, rfl, same, inside⟩)
  | object members =>
      obtain ⟨own, same, inside⟩ := forms.of_own ⟨rfl, inPlace members rfl⟩
      exact .inr (.inr ⟨members, own, rfl, same, inside⟩)

theorem FormsMembers.names {members : Members Value} {own : Members Expansion}
    (forms : FormsMembers becomes scope members own) :
    own.map Prod.fst = members.map Prod.fst := by
  induction members generalizing own with
  | nil => exact congrArg (List.map Prod.fst) forms
  | cons first members ih =>
      obtain ⟨name, value⟩ := first
      rw [FormsMembers] at forms
      obtain ⟨first, others, rfl, -, later⟩ := forms
      rw [List.map_cons, List.map_cons, ih later]

theorem FormsMembers.find? {members : Members Value} {own : Members Expansion}
    (forms : FormsMembers becomes scope members own) (name : String) :
    (members.find? name = none ∧ own.find? name = none) ∨
      ∃ value expansion, members.find? name = some value ∧ own.find? name = some expansion ∧
        Forms becomes (scope.within (.text name)) value expansion := by
  induction members generalizing own with
  | nil => exact .inl ⟨rfl, by rw [FormsMembers] at forms; rw [forms]; rfl⟩
  | cons first members ih =>
      obtain ⟨key, value⟩ := first
      rw [FormsMembers] at forms
      obtain ⟨first, others, rfl, here, later⟩ := forms
      rw [Members.find?, Members.find?]
      split
      · rename_i same
        exact .inr ⟨value, first, rfl, rfl, same ▸ here⟩
      · exact ih later

theorem FormsItems.getElem? {items : List Value} {expansions : List Expansion}
    (forms : FormsItems becomes scope items expansions) {i : Nat} {item : Value}
    (found : items[i]? = some item) :
    ∃ expansion, expansions[i]? = some expansion ∧ Forms becomes scope item expansion := by
  induction items generalizing expansions i with
  | nil => cases found
  | cons first items ih =>
      rw [FormsItems] at forms
      obtain ⟨first', others, rfl, here, later⟩ := forms
      cases i with
      | zero =>
          cases found
          exact ⟨first', rfl, here⟩
      | succ i => exact ih later found

theorem FormsItems.forall₂ {items : List Value} {expansions : List Expansion}
    (forms : FormsItems becomes scope items expansions) :
    List.Forall₂ (Forms becomes scope) items expansions := by
  induction items generalizing expansions with
  | nil =>
      rw [FormsItems] at forms
      subst forms
      exact .nil
  | cons first items ih =>
      rw [FormsItems] at forms
      obtain ⟨first', others, rfl, here, later⟩ := forms
      exact .cons here (ih later)

theorem FormsMembers.mem {members : Members Value} {own : Members Expansion}
    (forms : FormsMembers becomes scope members own) {entry : Scalar × Expansion}
    (inside : entry ∈ own) : ∃ value, Forms becomes (scope.within entry.1) value entry.2 := by
  induction members generalizing own with
  | nil =>
      rw [FormsMembers] at forms
      subst forms
      cases inside
  | cons first members ih =>
      rw [FormsMembers] at forms
      obtain ⟨first', others, rfl, here, later⟩ := forms
      rcases List.mem_cons.mp inside with rfl | inside
      · exact ⟨_, here⟩
      · exact ih later inside

mutual
theorem Forms.mono (weaker : ∀ scope members reference expansion,
      becomes scope members reference expansion → becomes' scope members reference expansion) :
    (value : Value) → {scope : Scope} → {expansion : Expansion} →
      Forms becomes scope value expansion → Forms becomes' scope value expansion
  | .scalar s, _, _, forms => by
      rw [Forms] at forms ⊢
      exact forms
  | .list items, _, _, forms => by
      rw [Forms] at forms ⊢
      obtain ⟨expansions, rfl, inside⟩ := forms
      exact ⟨expansions, rfl, FormsItems.mono weaker items inside⟩
  | .object members, _, _, forms => by
      rw [Forms] at forms ⊢
      split at forms
      · exact weaker _ _ _ _ forms
      · obtain ⟨own, rfl, inside⟩ := forms
        exact ⟨own, rfl, FormsMembers.mono weaker members inside⟩

theorem FormsItems.mono (weaker : ∀ scope members reference expansion,
      becomes scope members reference expansion → becomes' scope members reference expansion) :
    (items : List Value) → {scope : Scope} → {expansions : List Expansion} →
      FormsItems becomes scope items expansions → FormsItems becomes' scope items expansions
  | [], _, _, forms => by
      rw [FormsItems] at forms ⊢
      exact forms
  | item :: rest, _, _, forms => by
      rw [FormsItems] at forms ⊢
      obtain ⟨first, others, rfl, here, later⟩ := forms
      exact ⟨first, others, rfl, Forms.mono weaker item here, FormsItems.mono weaker rest later⟩

theorem FormsMembers.mono (weaker : ∀ scope members reference expansion,
      becomes scope members reference expansion → becomes' scope members reference expansion) :
    (members : List (Scalar × Value)) → {scope : Scope} → {own : Members Expansion} →
      FormsMembers becomes scope members own → FormsMembers becomes' scope members own
  | [], _, _, forms => by
      rw [FormsMembers] at forms ⊢
      exact forms
  | (name, value) :: rest, _, _, forms => by
      rw [FormsMembers] at forms ⊢
      obtain ⟨first, others, rfl, here, later⟩ := forms
      exact ⟨first, others, rfl, Forms.mono weaker value here, FormsMembers.mono weaker rest later⟩
end

end Forms

/-! What a walk gives. -/

section Walk

variable {σ : Type} {follow : Follow (ExceptT Problem (StateM σ))} {holds : σ → Prop}
  {allowed : List String}

/-- A reference was followed, among some others, from a state that something holds of. -/
def Followed (follow : Follow (ExceptT Problem (StateM σ))) (holds : σ → Prop)
    (allowed : List String) : Becomes :=
  fun scope members reference expansion =>
    (∀ other ∈ referencesOf (.object members), other ∈ allowed) ∧ reference? members = some reference ∧
      ∃ before after, holds before ∧ (follow (some scope) members reference
        (walkMembers follow (some scope) true members)).run before = (.ok expansion, after)

variable (keeps : ∀ scope part, (∀ reference ∈ referencesOf part, reference ∈ allowed) →
  ∀ before, holds before → ∀ expansion after,
    (walk follow (some scope) part).run before = (.ok expansion, after) → holds after)
include keeps

set_option linter.unusedSectionVars false in
mutual
theorem walk_forms {scope : Scope} : (value : Value) →
    (∀ reference ∈ referencesOf value, reference ∈ allowed) → {before after : σ} → holds before →
      {expansion : Expansion} → (walk follow (some scope) value).run before = (.ok expansion, after) →
        Forms (Followed follow holds allowed) scope value expansion
  | .scalar s, _, _, _, _, _, ran => by
      rw [walk, run_pure] at ran
      rw [Forms]
      cases ran
      rfl
  | .list items, inside, _, _, known, _, ran => by
      rw [walk] at ran
      obtain ⟨expansions, walked, rfl⟩ := run_map_eq_ok ran
      rw [Forms]
      exact ⟨expansions, rfl, walkItems_forms items inside known walked⟩
  | .object members, inside, before, after, known, expansion, ran => by
      rw [walk] at ran
      rw [Forms]
      cases refers : reference? members with
      | some reference =>
          rw [refers] at ran
          exact ⟨inside, refers, before, after, known, ran⟩
      | none =>
          rw [refers] at ran
          obtain ⟨own, walked, rfl⟩ := run_map_eq_ok ran
          refine ⟨own, rfl, walkMembers_forms members (fun reference member => ?_) known walked⟩
          refine inside reference ?_
          rw [referencesOf]
          exact List.mem_append_right _ member

theorem walkItems_forms {scope : Scope} : (items : List Value) →
    (∀ reference ∈ referencesOfItems items, reference ∈ allowed) → {before after : σ} → holds before →
      {expansions : List Expansion} →
        (walkItems follow (some scope) items).run before = (.ok expansions, after) →
          FormsItems (Followed follow holds allowed) scope items expansions
  | [], _, _, _, _, _, ran => by
      rw [walkItems, run_pure] at ran
      rw [FormsItems]
      cases ran
      rfl
  | item :: rest, inside, before, after, known, expansions, ran => by
      rw [referencesOfItems] at inside
      rw [walkItems] at ran
      obtain ⟨first, middle, here, ran⟩ := run_bind_eq_ok ran
      obtain ⟨others, last, later, ran⟩ := run_bind_eq_ok ran
      cases ran
      have inside' : ∀ reference ∈ referencesOf item, reference ∈ allowed :=
        fun reference member => inside reference (List.mem_append_left _ member)
      rw [FormsItems]
      exact ⟨first, others, rfl, walk_forms item inside' known here,
        walkItems_forms rest (fun reference member => inside reference (List.mem_append_right _ member))
          (keeps scope item inside' before known first middle here) later⟩

theorem walkMembers_forms {scope : Scope} : (members : List (Scalar × Value)) →
    (∀ reference ∈ referencesOfMembers members, reference ∈ allowed) → {before after : σ} →
      holds before → {own : Members Expansion} →
        (walkMembers follow (some scope) false members).run before = (.ok own, after) →
          FormsMembers (Followed follow holds allowed) scope members own
  | [], _, _, _, _, _, ran => by
      rw [walkMembers, run_pure] at ran
      rw [FormsMembers]
      cases ran
      rfl
  | (name, value) :: rest, inside, before, after, known, own, ran => by
      rw [referencesOfMembers] at inside
      rw [walkMembers, if_neg (by simp)] at ran
      obtain ⟨first, middle, here, ran⟩ := run_bind_eq_ok ran
      obtain ⟨others, last, later, ran⟩ := run_bind_eq_ok ran
      cases ran
      have inside' : ∀ reference ∈ referencesOf value, reference ∈ allowed :=
        fun reference member => inside reference (List.mem_append_left _ member)
      rw [FormsMembers]
      exact ⟨first, others, rfl, walk_forms value inside' known here,
        walkMembers_forms rest
          (fun reference member => inside reference (List.mem_append_right _ member))
          (keeps (scope.within name) value inside' before known first middle here) later⟩
end

end Walk

end ApiCompiler.Loading
