import Mathlib.Data.List.Forall2
import Mathlib.Data.List.Perm.Basic
import ApiCompiler.Loading.Survey
import ApiCompiler.Proofs.Tree.Distinct

/-!
Trees that differ in nothing but the order of the members of their objects.
-/

namespace ApiCompiler

open Members

mutual
/-- The same tree, but for the order of the members of its objects. -/
inductive Reordered : Value → Value → Prop
  | scalar (s : Scalar) : Reordered (.scalar s) (.scalar s)
  | list {items items' : List Value} (each : ReorderedItems items items') :
      Reordered (.list items) (.list items')
  | object {members middle members' : List (Scalar × Value)} (distinct : Distinct members)
      (each : ReorderedMembers members middle) (moved : middle.Perm members') :
      Reordered (.object members) (.object members')

inductive ReorderedItems : List Value → List Value → Prop
  | nil : ReorderedItems [] []
  | cons {item item' : Value} {items items' : List Value} (first : Reordered item item')
      (rest : ReorderedItems items items') : ReorderedItems (item :: items) (item' :: items')

inductive ReorderedMembers : List (Scalar × Value) → List (Scalar × Value) → Prop
  | nil : ReorderedMembers [] []
  | cons {name : Scalar} {value value' : Value} {members members' : List (Scalar × Value)}
      (first : Reordered value value') (rest : ReorderedMembers members members') :
      ReorderedMembers ((name, value) :: members) ((name, value') :: members')
end

variable {value value' : Value} {members middle members' : Members Value}

theorem ReorderedMembers.names (each : ReorderedMembers members members') :
    members'.map Prod.fst = members.map Prod.fst := by
  induction members generalizing members' with
  | nil => cases each; rfl
  | cons first members ih =>
      cases each with
      | cons _ rest => rw [List.map_cons, List.map_cons, ih rest]

theorem reorderedMembers_iff : ReorderedMembers members members' ↔
    List.Forall₂ (fun first second => first.1 = second.1 ∧ Reordered first.2 second.2) members
      members' := by
  constructor
  · intro each
    induction members generalizing members' with
    | nil => cases each; exact .nil
    | cons first members ih =>
        cases each with
        | cons first rest => exact .cons ⟨rfl, first⟩ (ih rest)
  · intro each
    induction each with
    | nil => exact .nil
    | @cons first second members members' same rest ih =>
        obtain ⟨name, value⟩ := first
        obtain ⟨_, value'⟩ := second
        obtain ⟨rfl, related⟩ := same
        exact .cons related ih

/-- What comes of a permutation before is a permutation after. -/
theorem ReorderedMembers.of_perm {moved : List (Scalar × Value)} (before : moved.Perm members)
    (each : ReorderedMembers members members') :
    ∃ others, ReorderedMembers moved others ∧ others.Perm members' := by
  obtain ⟨others, related, permuted⟩ :=
    List.perm_comp_forall₂ before (reorderedMembers_iff.mp each)
  exact ⟨others, reorderedMembers_iff.mpr related, permuted⟩

theorem ReorderedMembers.distinct (each : ReorderedMembers members members')
    (distinct : Distinct members) : Distinct members' := by
  rw [Distinct, each.names]
  exact distinct

mutual
theorem Reordered.symm : (value : Value) → {value' : Value} → Reordered value value' →
    Reordered value' value
  | .scalar _, _, .scalar s => .scalar s
  | .list items, _, .list each => .list (ReorderedItems.symm items each)
  | .object members, _, .object distinct each moved => by
      obtain ⟨others, related, permuted⟩ := (ReorderedMembers.symm members each).of_perm moved.symm
      exact .object ((each.distinct distinct).perm moved) related permuted

theorem ReorderedItems.symm : (items : List Value) → {items' : List Value} →
    ReorderedItems items items' → ReorderedItems items' items
  | [], _, .nil => .nil
  | item :: items, _, .cons first rest => .cons (Reordered.symm item first) (ReorderedItems.symm items rest)

theorem ReorderedMembers.symm : (members : List (Scalar × Value)) →
    {members' : List (Scalar × Value)} → ReorderedMembers members members' →
      ReorderedMembers members' members
  | [], _, .nil => .nil
  | (_, value) :: members, _, .cons first rest =>
      .cons (Reordered.symm value first) (ReorderedMembers.symm members rest)
end

/-! What is found in a tree. -/

theorem ReorderedMembers.find? (each : ReorderedMembers members members') (name : String) :
    Option.Rel Reordered (members.find? name) (members'.find? name) := by
  induction members generalizing members' with
  | nil => cases each; exact .none
  | cons first members ih =>
      cases each with
      | cons first rest =>
          rw [Members.find?, Members.find?]
          split
          · exact .some first
          · exact ih rest

theorem Reordered.find? (reordered : Reordered (.object members) (.object members'))
    (name : String) : Option.Rel Reordered (members.find? name) (members'.find? name) := by
  cases reordered with
  | object distinct each moved =>
      rw [← find?_perm (each.distinct distinct) moved]
      exact each.find? name

theorem Reordered.text? (reordered : Reordered value value') : value'.text? = value.text? := by
  cases reordered <;> rfl

theorem Reordered.length (reordered : Reordered (.object members) (.object members')) :
    members'.length = members.length := by
  cases reordered with
  | object distinct each moved =>
      have names := congrArg List.length each.names
      rw [List.length_map, List.length_map] at names
      rw [← moved.length_eq, names]

theorem Reordered.reference? (reordered : Reordered (.object members) (.object members')) :
    Loading.reference? members' = Loading.reference? members := by
  have found := reordered.find? Openapi.referenceKey
  rw [Loading.reference?, Loading.reference?]
  generalize members.find? Openapi.referenceKey = one at found ⊢
  generalize members'.find? Openapi.referenceKey = other at found ⊢
  cases found with
  | none => rfl
  | some same => exact same.text?

theorem append_subset_append {first first' second second' : List String} (one : first ⊆ first')
    (other : second ⊆ second') : first ++ second ⊆ first' ++ second' := fun _ inside =>
  List.mem_append.mpr ((List.mem_append.mp inside).imp (one ·) (other ·))

theorem referencesOfMembers_perm (moved : members.Perm members') :
    Loading.referencesOfMembers members ⊆ Loading.referencesOfMembers members' := by
  induction moved with
  | nil => exact List.Subset.refl _
  | cons first moved ih =>
      rw [Loading.referencesOfMembers, Loading.referencesOfMembers]
      exact append_subset_append (List.Subset.refl _) ih
  | swap first second rest =>
      simp only [Loading.referencesOfMembers]
      intro reference
      simp only [List.mem_append]
      tauto
  | trans moved moved' ih ih' => exact List.Subset.trans ih ih'

mutual
theorem Reordered.references : (value : Value) → {value' : Value} → Reordered value value' →
    Loading.referencesOf value ⊆ Loading.referencesOf value'
  | .scalar _, _, .scalar s => List.Subset.refl _
  | .list items, _, .list each => by
      rw [Loading.referencesOf, Loading.referencesOf]
      exact ReorderedItems.references items each
  | .object members, .object members', reordered => by
      rw [Loading.referencesOf, Loading.referencesOf, reordered.reference?]
      cases reordered with
      | object distinct each moved =>
          exact append_subset_append (List.Subset.refl _)
            (List.Subset.trans (ReorderedMembers.references members each)
              (referencesOfMembers_perm moved))

theorem ReorderedItems.references : (items : List Value) → {items' : List Value} →
    ReorderedItems items items' →
      Loading.referencesOfItems items ⊆ Loading.referencesOfItems items'
  | [], _, .nil => List.Subset.refl _
  | item :: items, _, .cons first rest => by
      rw [Loading.referencesOfItems, Loading.referencesOfItems]
      exact append_subset_append (Reordered.references item first)
        (ReorderedItems.references items rest)

theorem ReorderedMembers.references : (members : List (Scalar × Value)) →
    {members' : List (Scalar × Value)} → ReorderedMembers members members' →
      Loading.referencesOfMembers members ⊆ Loading.referencesOfMembers members'
  | [], _, .nil => List.Subset.refl _
  | (_, value) :: members, _, .cons first rest => by
      rw [Loading.referencesOfMembers, Loading.referencesOfMembers]
      exact append_subset_append (Reordered.references value first)
        (ReorderedMembers.references members rest)
end

theorem ReorderedItems.getElem? {items items' : List Value} (each : ReorderedItems items items')
    (i : Nat) : Option.Rel Reordered items[i]? items'[i]? := by
  induction items generalizing items' i with
  | nil => cases each; exact .none
  | cons item items ih =>
      cases each with
      | cons first rest =>
          cases i with
          | zero => exact .some first
          | succ i => exact ih rest i

theorem ReorderedItems.length {items items' : List Value} (each : ReorderedItems items items') :
    items'.length = items.length := by
  induction items generalizing items' with
  | nil => cases each; rfl
  | cons item items ih =>
      cases each with
      | cons _ rest => rw [List.length_cons, List.length_cons, ih rest]

theorem Reordered.step? (reordered : Reordered value value') (segment : List Char) :
    Option.Rel Reordered (Pointer.step? value segment) (Pointer.step? value' segment) := by
  cases reordered with
  | scalar s => exact .none
  | list each =>
      rw [Pointer.step?, Pointer.step?]
      cases Text.readInteger? segment with
      | none => exact .none
      | some position =>
          rw [Option.bind_some, Option.bind_some, Pointer.item?, Pointer.item?, each.length]
          generalize (if position < 0 then position + _ else position) = index
          split
          · exact .none
          · exact each.getElem? _
  | object distinct each moved =>
      exact (Reordered.object distinct each moved).find? (String.ofList segment)

theorem Reordered.resolve? {root root' : Value} (reordered : Reordered root root')
    (pointer : List Char) :
    Option.Rel Reordered (Pointer.resolve? root pointer) (Pointer.resolve? root' pointer) := by
  rw [Pointer.resolve?, Pointer.resolve?]
  generalize Pointer.segments pointer = segments
  induction segments generalizing root root' with
  | nil => exact .some reordered
  | cons segment segments ih =>
      have step := reordered.step? segment
      rw [List.foldlM_cons, List.foldlM_cons]
      generalize Pointer.step? root segment = one at step ⊢
      generalize Pointer.step? root' segment = other at step ⊢
      cases step with
      | none => exact .none
      | some part => exact ih part

/-! Members taken out, and members laid over others. -/

theorem ReorderedMembers.filter {keep : Scalar × Value → Bool}
    (named : ∀ name value value', keep (name, value) = keep (name, value'))
    (each : ReorderedMembers members members') :
    ReorderedMembers (members.filter keep) (members'.filter keep) := by
  induction members generalizing members' with
  | nil => cases each; exact .nil
  | cons first members ih =>
      cases each with
      | @cons name value value' _ _ first rest =>
          rw [List.filter_cons, List.filter_cons, named name value' value]
          split
          · exact .cons first (ih rest)
          · exact ih rest

theorem Reordered.filter {keep : Scalar × Value → Bool}
    (named : ∀ name value value', keep (name, value) = keep (name, value'))
    (reordered : Reordered (.object members) (.object members')) :
    Reordered (.object (members.filter keep)) (.object (members'.filter keep)) := by
  cases reordered with
  | object distinct each moved =>
      exact .object (distinct.sublist List.filter_sublist) (each.filter named) (moved.filter _)

theorem ReorderedMembers.put (each : ReorderedMembers members members') (name : Scalar)
    (first : Reordered value value') :
    ReorderedMembers (members.put name value) (members'.put name value') := by
  induction members generalizing members' with
  | nil => cases each; exact .cons first .nil
  | cons _ members ih =>
      cases each with
      | cons old rest =>
          rw [Members.put, Members.put]
          split
          · exact .cons first rest
          · exact .cons old (ih rest)

theorem ReorderedMembers.override {base base' own own' : Members Value}
    (each : ReorderedMembers base base') (above : ReorderedMembers own own') :
    ReorderedMembers (base.override own) (base'.override own') := by
  induction own generalizing base base' own' with
  | nil => cases above; exact each
  | cons _ own ih =>
      cases above with
      | cons first rest =>
          rw [override_cons, override_cons]
          exact ih (each.put _ first) rest

theorem Reordered.override {base base' own own' : Members Value}
    (reordered : Reordered (.object base) (.object base'))
    (above : Reordered (.object own) (.object own')) :
    Reordered (.object (base.override own)) (.object (base'.override own')) := by
  cases reordered with
  | @object _ middle _ distinct each moved =>
      cases above with
      | @object _ middle' _ distinct' each' moved' =>
          have here := each.distinct distinct
          refine .object (distinct.override own) (each.override each') ?_
          exact (override_perm here moved middle').trans
            (override_own_perm (here.perm moved) (each'.distinct distinct') moved')

end ApiCompiler
