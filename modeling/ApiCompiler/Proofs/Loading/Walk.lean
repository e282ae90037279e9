import ApiCompiler.Loading.Inlining

/-!
What a walk through a value has of the way in which it follows references.
-/

namespace ApiCompiler.Loading

open Openapi

variable {m n : Type → Type} [Monad m] [Monad n]

/-- A relation of two computations that is kept when they go on in the same way. -/
structure Keeps (rel : (α : Type) → m α → n α → Prop) : Prop where
  pure : ∀ {α : Type} (a : α), rel α (Pure.pure a) (Pure.pure a)
  bind : ∀ {α β : Type} {x : m α} {y : n α} {f : α → m β} {g : α → n β},
    rel α x y → (∀ a, rel β (f a) (g a)) → rel β (x >>= f) (y >>= g)

variable {rel : (α : Type) → m α → n α → Prop}

theorem Keeps.map [LawfulMonad m] [LawfulMonad n] (keeps : Keeps rel) {α β : Type} (f : α → β)
    {x : m α} {y : n α} (related : rel α x y) : rel β (f <$> x) (f <$> y) := by
  rw [map_eq_pure_bind, map_eq_pure_bind]
  exact keeps.bind related fun a => keeps.pure (f a)

theorem Keeps.overlay (keeps : Keeps rel) {node : Members Value} {x : m (Members Expansion)}
    {y : n (Members Expansion)} (related : rel _ x y) (expansion : Expansion) :
    rel _ (overlay node x expansion) (overlay node y expansion) := by
  cases expansion with
  | scalar s => exact keeps.pure _
  | list items => exact keeps.pure _
  | object members plain schema =>
      rw [Loading.overlay, Loading.overlay]
      split
      · exact keeps.pure _
      · exact keeps.bind related fun _ => keeps.pure _

/-- Two ways to follow a reference are related in all scopes that belong together. -/
def Alike (rel : (α : Type) → m α → n α → Prop) (scopes : Option Scope → Option Scope → Prop)
    (follow : Follow m) (follow' : Follow n) (reference : String) : Prop :=
  ∀ scope scope' node x y, scopes scope scope' → rel _ x y →
    rel _ (follow scope node reference x) (follow' scope' node reference y)

section Walk

variable [LawfulMonad m] [LawfulMonad n] (keeps : Keeps rel)
  {scopes : Option Scope → Option Scope → Prop}
  (within : ∀ scope scope' name, scopes scope scope' →
    scopes (scope.map (Scope.within · name)) (scope'.map (Scope.within · name)))
  {follow : Follow m} {follow' : Follow n}
include keeps within

set_option linter.unusedSectionVars false in
mutual
theorem walk_related {scope scope' : Option Scope} (together : scopes scope scope') :
    (value : Value) → (∀ reference ∈ referencesOf value, Alike rel scopes follow follow' reference) →
      rel _ (walk follow scope value) (walk follow' scope' value)
  | .scalar s, _ => by
      rw [walk, walk]
      exact keeps.pure _
  | .list items, alike => by
      rw [walk, walk]
      exact keeps.map _ (walkItems_related together items alike)
  | .object members, alike => by
      rw [referencesOf] at alike
      rw [walk, walk]
      have inside (siblings : Bool) := walkMembers_related together siblings members
        fun reference member => alike reference (List.mem_append_right _ member)
      cases refers : reference? members with
      | none => exact keeps.map _ (inside false)
      | some reference =>
          exact alike reference (by simp [refers]) _ _ members _ _ together (inside true)

theorem walkItems_related {scope scope' : Option Scope} (together : scopes scope scope') :
    (items : List Value) →
      (∀ reference ∈ referencesOfItems items, Alike rel scopes follow follow' reference) →
      rel _ (walkItems follow scope items) (walkItems follow' scope' items)
  | [], _ => by
      rw [walkItems, walkItems]
      exact keeps.pure _
  | item :: rest, alike => by
      rw [referencesOfItems] at alike
      rw [walkItems, walkItems]
      refine keeps.bind (walk_related together item
        fun reference member => alike reference (List.mem_append_left _ member)) fun first => ?_
      exact keeps.bind (walkItems_related together rest
        fun reference member => alike reference (List.mem_append_right _ member))
          fun _ => keeps.pure _

theorem walkMembers_related {scope scope' : Option Scope} (together : scopes scope scope')
    (siblings : Bool) : (members : List (Scalar × Value)) →
      (∀ reference ∈ referencesOfMembers members, Alike rel scopes follow follow' reference) →
      rel _ (walkMembers follow scope siblings members) (walkMembers follow' scope' siblings members)
  | [], _ => by
      rw [walkMembers, walkMembers]
      exact keeps.pure _
  | (name, value) :: rest, alike => by
      rw [referencesOfMembers] at alike
      have later := walkMembers_related together siblings rest
        fun reference member => alike reference (List.mem_append_right _ member)
      rw [walkMembers, walkMembers]
      split
      · exact later
      · refine keeps.bind (walk_related (within _ _ name together) value
          fun reference member => alike reference (List.mem_append_left _ member)) fun first => ?_
        exact keeps.bind later fun _ => keeps.pure _
end

end Walk

theorem walk_related_eq [LawfulMonad m] [LawfulMonad n] (keeps : Keeps rel) {follow : Follow m}
    {follow' : Follow n} {value : Value}
    (each : ∀ reference ∈ referencesOf value, ∀ scope node x y, rel _ x y →
      rel _ (follow scope node reference x) (follow' scope node reference y)) (scope : Option Scope) :
    rel _ (walk follow scope value) (walk follow' scope value) := by
  have alike : ∀ reference ∈ referencesOf value, Alike rel Eq follow follow' reference := by
    rintro reference inside scope _ node x y rfl related
    exact each reference inside scope node x y related
  exact walk_related keeps (fun _ _ _ same => by rw [same]) rfl value alike

/-- What holds of every way to follow a reference of a value holds of the walk through it. -/
theorem walk_holds [LawfulMonad m] {holds : (α : Type) → m α → Prop}
    (keeps : Keeps (n := Id) fun α x _ => holds α x) {inScope : Option Scope → Prop}
    (within : ∀ scope name, inScope scope → inScope (scope.map (Scope.within · name)))
    {follow : Follow m} {value : Value}
    (each : ∀ reference ∈ referencesOf value, ∀ scope node x, inScope scope → holds _ x →
      holds _ (follow scope node reference x)) {scope : Option Scope} (here : inScope scope) :
    holds _ (walk follow scope value) := by
  let still : Follow Id := fun _ node _ _ => .ofValue (.object node)
  have related : ∀ reference ∈ referencesOf value,
      Alike (fun α x (_ : Id α) => holds α x) (fun scope _ => inScope scope) follow still reference :=
    fun reference inside scope _ node x _ here known => each reference inside scope node x here known
  exact @walk_related m Id _ _ _ _ _ keeps (fun scope _ => inScope scope)
    (fun scope _ name => within scope name) follow still scope none here value related

end ApiCompiler.Loading
