import ApiCompiler.Proofs.Loading.Walk
import ApiCompiler.Proofs.Tree.Reordered

/-!
A walk through a tree with its members in another order gives the same tree with its members in another
order.
-/

namespace ApiCompiler

namespace Openapi.Expansion

theorem ofNamed_eq_map (members : Members Value) :
    ofNamed members = members.map fun (name, value) => (name, ofValue value) := by
  induction members with
  | nil => rfl
  | cons first members ih => rw [ofNamed, ih]; rfl

theorem ofNamed_put (name : Scalar) (value : Value) (members : Members Value) :
    ofNamed (members.put name value) = Members.put name (ofValue value) (ofNamed members) := by
  induction members with
  | nil => rfl
  | cons first members ih =>
      rw [Members.put, ofNamed, Members.put]
      split
      · rfl
      · rw [ofNamed, ih]

theorem ofNamed_override (base own : Members Value) :
    ofNamed (base.override own) = Members.override (ofNamed base) (ofNamed own) := by
  induction own generalizing base with
  | nil => rfl
  | cons first own ih =>
      rw [Members.override_cons, ih, ofNamed_put, ofNamed, Members.override_cons]

end Openapi.Expansion

namespace Loading

open Openapi Openapi.Expansion

def Mirrors {α : Type} (rel : α → α → Prop) (x y : Option α) : Prop :=
  ∀ a, x = some a → ∃ b, y = some b ∧ rel a b

section Mirrors

variable {α β : Type} {rel : α → α → Prop} {rel' : β → β → Prop} {x y : Option α}

theorem Mirrors.none (y : Option α) : Mirrors rel Option.none y :=
  nofun

theorem Mirrors.some {a b : α} (related : rel a b) : Mirrors rel (some a) (some b) := by
  rintro _ ⟨⟩
  exact ⟨b, rfl, related⟩

theorem Mirrors.bind {f g : α → Option β} (begun : Mirrors rel x y)
    (rest : ∀ a b, rel a b → Mirrors rel' (f a) (g b)) : Mirrors rel' (x >>= f) (y >>= g) := by
  intro c found
  obtain ⟨a, here, found⟩ := Option.bind_eq_some_iff.mp found
  obtain ⟨b, there, related⟩ := begun a here
  obtain ⟨d, found', related'⟩ := rest a b related c found
  exact ⟨d, Option.bind_eq_some_iff.mpr ⟨b, there, found'⟩, related'⟩

theorem Mirrors.map {f g : α → β} (begun : Mirrors rel x y)
    (rest : ∀ a b, rel a b → rel' (f a) (g b)) : Mirrors rel' (f <$> x) (g <$> y) := by
  rw [map_eq_pure_bind, map_eq_pure_bind]
  exact begun.bind fun a b related => .some (rest a b related)

end Mirrors

/-- Two expansions hold one tree, but for the order of members. -/
def SameTree (expansion expansion' : Expansion) : Prop :=
  ∃ value value', expansion = .ofValue value ∧ expansion' = .ofValue value' ∧
    Reordered value value'

def SameItems (items items' : List Expansion) : Prop :=
  ∃ values values', items = ofItems values ∧ items' = ofItems values' ∧ ReorderedItems values values'

/-- Members of two expansions that may come in another order. -/
def SameMembers (members members' : Members Expansion) : Prop :=
  ∃ values values', members = ofNamed values ∧ members' = ofNamed values' ∧
    Reordered (.object values) (.object values')

def SameEach (members members' : Members Expansion) : Prop :=
  ∃ values values', members = ofNamed values ∧ members' = ofNamed values' ∧
    ReorderedMembers values values'

theorem SameMembers.tree {members members' : Members Expansion} (same : SameMembers members members') :
    SameTree (.ofMembers members) (.ofMembers members') := by
  obtain ⟨values, values', rfl, rfl, reordered⟩ := same
  exact ⟨.object values, .object values', rfl, rfl, reordered⟩

theorem SameMembers.override {base base' own own' : Members Expansion}
    (same : SameMembers base base') (above : SameMembers own own') :
    SameMembers (base.override own) (base'.override own') := by
  obtain ⟨values, values', rfl, rfl, reordered⟩ := same
  obtain ⟨others, others', rfl, rfl, reordered'⟩ := above
  exact ⟨_, _, (ofNamed_override ..).symm, (ofNamed_override ..).symm, reordered.override reordered'⟩

theorem SameTree.overlay {expansion expansion' : Expansion} (same : SameTree expansion expansion')
    {node node' : Members Value} (length : node'.length = node.length)
    {siblings siblings' : Option (Members Expansion)}
    (mirrors : Mirrors SameMembers siblings siblings') :
    Mirrors SameTree (overlay node siblings expansion) (overlay node' siblings' expansion') := by
  have whole := same
  obtain ⟨value, value', rfl, rfl, reordered⟩ := same
  cases reordered with
  | scalar s => exact .some whole
  | list each => exact .some whole
  | object distinct each moved =>
      rw [ofValue, ofValue, ofMembers, ofMembers, Loading.overlay, Loading.overlay, length]
      split
      · exact .some whole
      · refine mirrors.bind fun own own' above => .some (SameMembers.tree ?_)
        exact SameMembers.override ⟨_, _, rfl, rfl, .object distinct each moved⟩ above

/-! Members in another order. -/

section Members

variable {follow follow' : Follow Option} {scope : Option Scope} {siblings : Bool}
  {members members' : List (Scalar × Value)}

/-- The members that are walked, without the reference if only its siblings are. -/
def walked (siblings : Bool) (members : List (Scalar × Value)) : List (Scalar × Value) :=
  members.filter fun first => !(siblings && first.1 = .text referenceKey)

def WalksTo (follow : Follow Option) (scope : Option Scope) (first : Scalar × Value)
    (second : Scalar × Expansion) : Prop :=
  second.1 = first.1 ∧
    walk follow (scope.map (Scope.within · first.1)) first.2 = some second.2

theorem walkMembers_eq_some {own : Members Expansion} :
    walkMembers follow scope siblings members = some own ↔
      List.Forall₂ (WalksTo follow scope) (walked siblings members) own := by
  induction members generalizing own with
  | nil =>
      rw [walkMembers, walked, List.filter_nil, List.forall₂_nil_left_iff]
      exact ⟨fun same => (Option.some.inj same).symm, fun same => congrArg some same.symm⟩
  | cons first members ih =>
      obtain ⟨name, value⟩ := first
      rw [walkMembers]
      split
      · rename_i skipped
        rw [walked, List.filter_cons_of_neg (by simpa using skipped)]
        exact ih
      · rename_i kept
        rw [Bool.not_eq_true] at kept
        rw [walked, List.filter_cons_of_pos (by rw [kept]; rfl), List.forall₂_cons_left_iff]
        constructor
        · intro found
          obtain ⟨expansion, here, found⟩ := Option.bind_eq_some_iff.mp found
          obtain ⟨others, later, found⟩ := Option.bind_eq_some_iff.mp found
          cases found
          exact ⟨(name, expansion), others, ⟨rfl, here⟩, ih.mp later, rfl⟩
        · rintro ⟨⟨_, expansion⟩, others, ⟨rfl, here⟩, later, rfl⟩
          exact Option.bind_eq_some_iff.mpr ⟨expansion, here,
            Option.bind_eq_some_iff.mpr ⟨others, ih.mpr later, rfl⟩⟩

theorem walkMembers_perm (moved : members.Perm members') :
    Mirrors List.Perm (walkMembers follow scope siblings members)
      (walkMembers follow scope siblings members') := by
  intro own found
  have moved' : (walked siblings members').Perm (walked siblings members) := (moved.filter _).symm
  obtain ⟨own', each, permuted⟩ := List.perm_comp_forall₂ moved' (walkMembers_eq_some.mp found)
  exact ⟨own', walkMembers_eq_some.mpr each, permuted.symm⟩

theorem walkMembers_names {own : Members Expansion}
    (found : walkMembers follow scope siblings members = some own) :
    own.map Prod.fst = (walked siblings members).map Prod.fst := by
  have each := walkMembers_eq_some.mp found
  clear found
  generalize walked siblings members = kept at each ⊢
  induction each with
  | nil => rfl
  | cons same _ ih => rw [List.map_cons, List.map_cons, same.1, ih]

theorem forall₂_ofNamed {own : Members Expansion} {values : Members Value} :
    List.Forall₂ (fun first second => first = (second.1, ofValue second.2)) own values ↔
      own = ofNamed values := by
  rw [ofNamed_eq_map, ← List.forall₂_eq_eq_eq, List.forall₂_map_right_iff]

theorem SameEach.moved {own middle own' : Members Expansion} (each : SameEach own middle)
    (distinct : Members.Distinct own) (permuted : middle.Perm own') : SameMembers own own' := by
  obtain ⟨values, values', rfl, rfl, reordered⟩ := each
  obtain ⟨others, same, moved⟩ :=
    List.perm_comp_forall₂ permuted.symm (forall₂_ofNamed.mpr rfl)
  refine ⟨values, others, rfl, forall₂_ofNamed.mp same, .object ?_ reordered moved.symm⟩
  rw [Members.Distinct, ofNamed_eq_map, List.map_map] at distinct
  exact distinct

end Members

/-! Trees in another order. -/

/-- Two ways to follow a reference give the same, but for the order of members. -/
def Mirrored (follow follow' : Follow Option) : Prop :=
  ∀ scope node node' reference siblings siblings', Reordered (.object node) (.object node') →
    Mirrors SameMembers siblings siblings' →
      Mirrors SameTree (follow scope node reference siblings)
        (follow' scope node' reference siblings')

section Walk

variable {follow follow' : Follow Option} (mirrored : Mirrored follow follow')
include mirrored

set_option linter.unusedSectionVars false in
mutual
theorem walk_mirrors (scope : Option Scope) : (value : Value) → {value' : Value} →
    Reordered value value' →
      Mirrors SameTree (walk follow scope value) (walk follow' scope value')
  | .scalar _, _, .scalar s => by
      rw [walk, walk]
      exact .some ⟨.scalar s, .scalar s, rfl, rfl, .scalar s⟩
  | .list items, .list items', .list each => by
      rw [walk, walk]
      refine (walkItems_mirrors scope items each).map ?_
      rintro _ _ ⟨values, values', rfl, rfl, same⟩
      exact ⟨.list values, .list values', rfl, rfl, .list same⟩
  | .object members, .object members', .object distinct each moved => by
      have inside (siblings : Bool) : Mirrors SameMembers (walkMembers follow scope siblings members)
          (walkMembers follow' scope siblings members') := by
        intro own found
        -- First each member in its place, then all of them in the other order.
        obtain ⟨middle, found', same⟩ := walkMembers_mirrors scope siblings members each own found
        obtain ⟨own', found'', permuted⟩ := walkMembers_perm moved middle found'
        refine ⟨own', found'', same.moved ?_ permuted⟩
        rw [Members.Distinct, walkMembers_names found]
        exact distinct.sublist List.filter_sublist
      have whole : Reordered (.object members) (.object members') := .object distinct each moved
      rw [walk, walk, whole.reference?]
      cases reference? members with
      | none => exact (inside false).map fun _ _ same => same.tree
      | some reference => exact mirrored scope members members' reference _ _ whole (inside true)

theorem walkItems_mirrors (scope : Option Scope) : (items : List Value) → {items' : List Value} →
    ReorderedItems items items' →
      Mirrors SameItems (walkItems follow scope items) (walkItems follow' scope items')
  | [], _, .nil => by
      rw [walkItems, walkItems]
      exact .some ⟨[], [], rfl, rfl, .nil⟩
  | item :: items, _, .cons first rest => by
      rw [walkItems, walkItems]
      refine (walk_mirrors scope item first).bind ?_
      rintro _ _ ⟨value, value', rfl, rfl, same⟩
      refine (walkItems_mirrors scope items rest).bind ?_
      rintro _ _ ⟨values, values', rfl, rfl, others⟩
      exact .some ⟨value :: values, value' :: values', rfl, rfl, .cons same others⟩

theorem walkMembers_mirrors (scope : Option Scope) (siblings : Bool) :
    (members : List (Scalar × Value)) → {members' : List (Scalar × Value)} →
      ReorderedMembers members members' →
        Mirrors SameEach (walkMembers follow scope siblings members)
          (walkMembers follow' scope siblings members')
  | [], _, .nil => by
      rw [walkMembers, walkMembers]
      exact .some ⟨[], [], rfl, rfl, .nil⟩
  | (name, value) :: members, _, .cons first rest => by
      have later := walkMembers_mirrors scope siblings members rest
      rw [walkMembers, walkMembers]
      split
      · exact later
      · refine (walk_mirrors _ value first).bind ?_
        rintro _ _ ⟨value, value', rfl, rfl, same⟩
        refine later.bind ?_
        rintro _ _ ⟨values, values', rfl, rfl, others⟩
        exact .some ⟨(name, value) :: values, (name, value') :: values', rfl, rfl, .cons same others⟩
end

end Walk

end Loading

end ApiCompiler
