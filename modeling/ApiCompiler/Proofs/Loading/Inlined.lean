import Mathlib.Data.List.Perm.Subperm
import ApiCompiler.Proofs.Loading.Filing
import ApiCompiler.Proofs.Tree.Overlaid

/-!
Plain inlining: every reference that leads somewhere gives way to its target, which is inlined where it
is met, without regard to what was inlined before. It has no end where references lead in a circle.
-/

namespace ApiCompiler.Loading

open Openapi Relation

/-- An object with members laid over its own; anything else stays as it is. -/
def overridden (own : Members Expansion) : Expansion → Expansion
  | .object members _ _ => .ofMembers (Members.overlaid members own)
  | expansion => expansion

mutual
/-- A value whose references give way to what is given for them, if anything is. -/
def inlineWith (given : String → Option (Option Expansion)) : Value → Option Expansion
  | .scalar s => some (.scalar s)
  | .list items => .list <$> inlineItems given items
  | .object members =>
      match reference? members with
      | none => .ofMembers <$> inlineMembers given members
      | some reference =>
          match given reference with
          | none => some (.ofValue (.object members))
          | some target => do
              let own ← inlineMembers given members
              return overridden (own.filter fun (name, _) => name ≠ .text referenceKey) (← target)

def inlineItems (given : String → Option (Option Expansion)) :
    List Value → Option (List Expansion)
  | [] => some []
  | item :: rest => do
      let first ← inlineWith given item
      return first :: (← inlineItems given rest)

def inlineMembers (given : String → Option (Option Expansion)) :
    List (Scalar × Value) → Option (Members Expansion)
  | [] => some []
  | (name, value) :: rest => do
      let first ← inlineWith given value
      return (name, first) :: (← inlineMembers given rest)
end

variable {given : String → Option (Option Expansion)}

/-! There is a result if there is one for every reference. -/

mutual
theorem inlineWith_isSome : (value : Value) →
    (∀ reference ∈ referencesOf value, ∀ target, given reference = some target → target.isSome) →
      (inlineWith given value).isSome
  | .scalar s, _ => by
      rw [inlineWith]
      rfl
  | .list items, known => by
      rw [inlineWith, Option.map_eq_map, Option.isSome_map]
      exact inlineItems_isSome items known
  | .object members, known => by
      rw [referencesOf] at known
      obtain ⟨own, inside⟩ := Option.isSome_iff_exists.mp (inlineMembers_isSome members
        fun reference later => known reference (List.mem_append_right _ later))
      rw [inlineWith, inside]
      cases refers : reference? members with
      | none => rfl
      | some reference =>
          dsimp only
          cases leads : given reference with
          | none => rfl
          | some target =>
              obtain ⟨expansion, rfl⟩ :=
                Option.isSome_iff_exists.mp (known reference (by simp [refers]) target leads)
              rfl

theorem inlineItems_isSome : (items : List Value) →
    (∀ reference ∈ referencesOfItems items, ∀ target, given reference = some target →
      target.isSome) → (inlineItems given items).isSome
  | [], _ => by
      rw [inlineItems]
      rfl
  | item :: rest, known => by
      rw [referencesOfItems] at known
      obtain ⟨first, here⟩ := Option.isSome_iff_exists.mp (inlineWith_isSome item
        fun reference inside => known reference (List.mem_append_left _ inside))
      obtain ⟨others, later⟩ := Option.isSome_iff_exists.mp (inlineItems_isSome rest
        fun reference inside => known reference (List.mem_append_right _ inside))
      rw [inlineItems, here, later]
      rfl

theorem inlineMembers_isSome : (members : List (Scalar × Value)) →
    (∀ reference ∈ referencesOfMembers members, ∀ target, given reference = some target →
      target.isSome) → (inlineMembers given members).isSome
  | [], _ => by
      rw [inlineMembers]
      rfl
  | (name, value) :: rest, known => by
      rw [referencesOfMembers] at known
      obtain ⟨first, here⟩ := Option.isSome_iff_exists.mp (inlineWith_isSome value
        fun reference inside => known reference (List.mem_append_left _ inside))
      obtain ⟨others, later⟩ := Option.isSome_iff_exists.mp (inlineMembers_isSome rest
        fun reference inside => known reference (List.mem_append_right _ inside))
      rw [inlineMembers, here, later]
      rfl
end

/-! It is found by a walk that keeps nothing in mind. -/

def followGiven (given : String → Option (Option Expansion)) : Follow Option :=
  fun _ node reference siblings =>
    match given reference with
    | none => some (.ofValue (.object node))
    | some target => do overlay node siblings (← target)

/-- An object knows no more of itself than its members. -/
def Made (expansion : Expansion) : Prop :=
  ∀ members plain schema, expansion = .object members plain schema →
    expansion = .ofMembers members

theorem inlineWith_made {value : Value} {expansion : Expansion}
    (found : inlineWith given value = some expansion) : Made expansion := by
  rintro members plain schema rfl
  cases value with
  | scalar s => rw [inlineWith] at found; cases found
  | list items =>
      rw [inlineWith, Option.map_eq_map, Option.map_eq_some_iff] at found
      obtain ⟨_, -, same⟩ := found
      cases same
  | object old =>
      rw [inlineWith] at found
      split at found
      · rw [Option.map_eq_map, Option.map_eq_some_iff] at found
        obtain ⟨_, -, same⟩ := found
        cases same
        rfl
      · split at found
        · cases found
          rfl
        · obtain ⟨own, -, found⟩ := Option.bind_eq_some_iff.mp found
          obtain ⟨base, -, found⟩ := Option.bind_eq_some_iff.mp found
          cases base with
          | scalar s => cases found
          | list items => cases found
          | object members' plain' schema' => cases found; rfl

theorem inlineMembers_names {members : List (Scalar × Value)} {own : Members Expansion}
    (found : inlineMembers given members = some own) : own.map Prod.fst = members.map Prod.fst := by
  induction members generalizing own with
  | nil =>
      rw [inlineMembers] at found
      cases found
      rfl
  | cons first members ih =>
      obtain ⟨name, value⟩ := first
      rw [inlineMembers] at found
      obtain ⟨expansion, -, found⟩ := Option.bind_eq_some_iff.mp found
      obtain ⟨others, later, found⟩ := Option.bind_eq_some_iff.mp found
      cases found
      rw [List.map_cons, List.map_cons, ih later]

theorem exists_reference_member {members : Members Value} {reference : String}
    (refers : reference? members = some reference) :
    ∃ value, (.text referenceKey, value) ∈ members := by
  obtain ⟨value, found, -⟩ := Option.bind_eq_some_iff.mp refers
  refine ⟨value, ?_⟩
  induction members with
  | nil => cases found
  | cons first members ih =>
      obtain ⟨name, old⟩ := first
      rw [Members.find?] at found
      split at found
      · rename_i same
        cases found
        rw [same]
        exact List.mem_cons_self
      · rename_i different
        refine List.mem_cons_of_mem _ (ih ?_ found)
        rw [reference?, found]
        rw [reference?, Members.find?, if_neg different] at refers
        exact found ▸ refers

/-- Nothing is laid over a target where there is nothing but the reference. -/
theorem siblings_of_length_le {members : Members Value} {reference : String}
    {own : Members Expansion} (refers : reference? members = some reference)
    (lone : members.length ≤ 1) (found : inlineMembers given members = some own) :
    own.filter (fun (name, _) => name ≠ .text referenceKey) = [] := by
  obtain ⟨value, inside⟩ := exists_reference_member refers
  have names := inlineMembers_names found
  match members, lone with
  | [first], _ =>
      rw [List.mem_singleton] at inside
      subst inside
      rw [List.filter_eq_nil_iff]
      intro pair member
      have named := names ▸ List.mem_map_of_mem (f := Prod.fst) member
      simpa using named
  | [], _ => cases inside

theorem overlay_overridden {members : Members Value} {reference : String}
    {own : Members Expansion} {siblings : Option (Members Expansion)} {target : Expansion}
    (refers : reference? members = some reference)
    (found : inlineMembers given members = some own)
    (walked : siblings = some (own.filter fun (name, _) => name ≠ .text referenceKey))
    (made : Made target) :
    overlay members siblings target =
      some (overridden (own.filter fun (name, _) => name ≠ .text referenceKey) target) := by
  cases target with
  | scalar s => rfl
  | list items => rfl
  | object base plain schema =>
      rw [overlay, overridden, walked]
      split
      · rename_i lone
        rw [siblings_of_length_le refers lone found, ← Members.override_eq_overlaid]
        exact congrArg some (made base plain schema rfl)
      · rw [← Members.override_eq_overlaid]
        rfl

mutual
theorem walk_inlineWith (made : ∀ reference target, given reference = some (some target) → Made target)
    (scope : Option Scope) : (value : Value) → {expansion : Expansion} →
      inlineWith given value = some expansion → walk (followGiven given) scope value = some expansion
  | .scalar s, _, found => by
      rw [inlineWith] at found
      rw [walk, ← found]
      rfl
  | .list items, _, found => by
      rw [inlineWith, Option.map_eq_map, Option.map_eq_some_iff] at found
      obtain ⟨expansions, inside, rfl⟩ := found
      rw [walk, walkItems_inlineItems made scope items inside]
      rfl
  | .object members, _, found => by
      rw [inlineWith] at found
      rw [walk]
      cases refers : reference? members with
      | none =>
          rw [refers] at found
          dsimp only at found
          rw [Option.map_eq_map, Option.map_eq_some_iff] at found
          obtain ⟨own, inside, rfl⟩ := found
          have all : (own.filter fun (name, _) => !(false && name = .text referenceKey)) = own :=
            List.filter_eq_self.mpr fun _ _ => rfl
          rw [walkMembers_inlineMembers made scope false members inside, all]
          rfl
      | some reference =>
          rw [refers] at found
          dsimp only at found ⊢
          rw [followGiven]
          cases leads : given reference with
          | none =>
              rw [leads] at found
              exact found
          | some target =>
              rw [leads] at found
              obtain ⟨own, inside, found⟩ := Option.bind_eq_some_iff.mp found
              obtain ⟨expansion, rfl, found⟩ := Option.bind_eq_some_iff.mp found
              have walked := walkMembers_inlineMembers made scope true members inside
              simp only [Bool.true_and] at walked
              cases found
              exact overlay_overridden refers inside (by simpa using walked) (made reference expansion leads)

theorem walkItems_inlineItems
    (made : ∀ reference target, given reference = some (some target) → Made target)
    (scope : Option Scope) : (items : List Value) → {expansions : List Expansion} →
      inlineItems given items = some expansions →
        walkItems (followGiven given) scope items = some expansions
  | [], _, found => by
      rw [inlineItems] at found
      rw [walkItems, ← found]
      rfl
  | item :: rest, _, found => by
      rw [inlineItems] at found
      obtain ⟨first, here, found⟩ := Option.bind_eq_some_iff.mp found
      obtain ⟨others, later, found⟩ := Option.bind_eq_some_iff.mp found
      cases found
      rw [walkItems, walk_inlineWith made scope item here, walkItems_inlineItems made scope rest later]
      rfl

theorem walkMembers_inlineMembers
    (made : ∀ reference target, given reference = some (some target) → Made target)
    (scope : Option Scope) (siblings : Bool) : (members : List (Scalar × Value)) →
      {own : Members Expansion} → inlineMembers given members = some own →
        walkMembers (followGiven given) scope siblings members =
          some (own.filter fun (name, _) => !(siblings && name = .text referenceKey))
  | [], _, found => by
      rw [inlineMembers] at found
      cases found
      rw [walkMembers]
      rfl
  | (name, value) :: rest, _, found => by
      rw [inlineMembers] at found
      obtain ⟨first, here, found⟩ := Option.bind_eq_some_iff.mp found
      obtain ⟨others, later, found⟩ := Option.bind_eq_some_iff.mp found
      cases found
      have tail := walkMembers_inlineMembers made scope siblings rest later
      rw [walkMembers]
      split
      · rename_i skipped
        rw [tail, List.filter_cons_of_neg (by simpa using skipped)]
      · rename_i kept
        rw [Bool.not_eq_true] at kept
        rw [walk_inlineWith made _ value here, tail, List.filter_cons_of_pos (by dsimp only; rw [kept]; rfl)]
        rfl
end

namespace Job

/--
A value of the document of a target, with its references inlined so many inside each other at most;
each is looked up where it is written.
-/
def inlined (job : Job) : (depth : Nat) → Target → Value → Option Expansion
  | 0, home, value =>
      inlineWith (fun reference => (job.target? home reference).map fun _ => none) value
  | depth + 1, home, value =>
      inlineWith (fun reference => (job.target? home reference).map fun target =>
        job.inlined depth target target.value) value

/-- What stands for the references in the document of a target. -/
def inlinedTarget (job : Job) (home : Target) (reference : String) :
    (depth : Nat) → Option (Option Expansion)
  | 0 => (job.target? home reference).map fun _ => none
  | depth + 1 => (job.target? home reference).map fun target =>
      job.inlined depth target target.value

variable {job : Job} {home target : Target} {value : Value}

theorem inlined_eq (depth : Nat) :
    job.inlined depth home value = inlineWith (job.inlinedTarget home · depth) value := by
  cases depth <;> rfl

theorem inlined_made {depth : Nat} {expansion : Expansion}
    (found : job.inlined depth home value = some expansion) : Made expansion := by
  rw [inlined_eq] at found
  exact inlineWith_made found

theorem walk_inlined {depth : Nat} {expansion : Expansion}
    (found : job.inlined depth home value = some expansion) (scope : Option Scope) :
    walk (followGiven (job.inlinedTarget home · depth)) scope value = some expansion := by
  rw [inlined_eq] at found
  refine walk_inlineWith (fun reference target given => ?_) scope value found
  cases depth with
  | zero =>
      obtain ⟨_, -, absurd⟩ := Option.map_eq_some_iff.mp given
      cases absurd
  | succ depth =>
      obtain ⟨_, -, inside⟩ := Option.map_eq_some_iff.mp given
      exact inlined_made inside

/-- No circle of references is reached from a value, whichever of its references are followed. -/
def Acyclic (job : Job) (home : Target) (value : Value) : Prop :=
  ∀ reference ∈ referencesOf value, ∀ target, job.target? home reference = some target →
    ∀ other, ReflTransGen job.Refers target other → ¬TransGen job.Refers other other

theorem Acyclic.leads (acyclic : job.Acyclic home value) {reference : String}
    (inside : reference ∈ referencesOf value) (leads : job.target? home reference = some target) :
    job.Acyclic target target.value :=
  fun next within _ onward other reached =>
    acyclic reference inside target leads other (ReflTransGen.head ⟨next, within, onward⟩ reached)

/-- Following the references of a value comes to an end within so many steps. -/
def endsWithin (job : Job) : (depth : Nat) → Target → Value → Bool
  | 0, home, value =>
      (referencesOf value).all fun reference => (job.target? home reference).isNone
  | depth + 1, home, value =>
      (referencesOf value).all fun reference => (job.target? home reference).all fun target =>
        job.endsWithin depth target target.value

theorem endsWithin_leads {depth : Nat} (ends : job.endsWithin depth home value = true)
    {reference : String} (inside : reference ∈ referencesOf value)
    (leads : job.target? home reference = some target) :
    ∃ less < depth, job.endsWithin less target target.value = true := by
  cases depth with
  | zero =>
      have lost := List.all_eq_true.mp ends reference inside
      rw [leads] at lost
      cases lost
  | succ depth =>
      have onward := List.all_eq_true.mp ends reference inside
      rw [leads] at onward
      exact ⟨depth, Nat.lt_succ_self depth, onward⟩

theorem endsWithin_reaches {depth : Nat} {other : Target}
    (ends : job.endsWithin depth target target.value = true)
    (reached : ReflTransGen job.Refers target other) :
    ∃ less ≤ depth, job.endsWithin less other other.value = true := by
  induction reached with
  | refl => exact ⟨depth, Nat.le_refl depth, ends⟩
  | tail _ refers ih =>
      obtain ⟨less, within, here⟩ := ih
      obtain ⟨reference, inside, leads⟩ := refers
      obtain ⟨further, below, there⟩ := endsWithin_leads here inside leads
      exact ⟨further, by omega, there⟩

/-- What comes to an end leads in no circle. -/
theorem acyclic_of_endsWithin {depth : Nat} (ends : job.endsWithin depth home value = true) :
    job.Acyclic home value := by
  -- A target on a circle would be met again with fewer steps left, and so on.
  have straight (depth : Nat) : ∀ other, job.endsWithin depth other other.value = true →
      ¬TransGen job.Refers other other := by
    induction depth using Nat.strongRecOn with
    | _ depth ih =>
        intro other ends circle
        obtain ⟨next, ⟨reference, inside, leads⟩, back⟩ := TransGen.head'_iff.mp circle
        obtain ⟨less, below, there⟩ := endsWithin_leads ends inside leads
        obtain ⟨further, within, again⟩ := endsWithin_reaches there back
        exact ih further (by omega) other again circle
  intro reference inside target leads other reached
  obtain ⟨less, -, there⟩ := endsWithin_leads ends inside leads
  obtain ⟨further, -, again⟩ := endsWithin_reaches there reached
  exact straight further other again

/-! Where references lead in no circle and to finitely many targets, there is an end. -/

/-- Targets that refer to none but each other, and the keys that those are filed under. -/
structure Enclosed (job : Job) (all : List String) (holds : Target → Prop) : Prop where
  met : ∀ target, holds target → job.Met target
  onward : ∀ home target, holds home → job.Refers home target → holds target
  keys : ∀ home, holds home → ∀ reference ∈ referencesOf home.value, ∀ key,
    job.link? home reference = some key → key ∈ all

section Enclosed

variable {all chain : List String} {holds : Target → Prop} (enclosed : job.Enclosed all holds)
  (plain : job.Plain) (here : holds home)
  (inside : ∀ reference ∈ referencesOf value, reference ∈ referencesOf home.value)
  (acyclic : job.Acyclic home value)
include enclosed plain here inside acyclic

/-- A target is not met again among those that lead to it. -/
theorem Enclosed.filed_apart
    (above : ∀ key ∈ chain, ∃ earlier, job.Filed key earlier ∧ ∀ reference ∈ referencesOf value,
      ∀ target, job.target? home reference = some target → TransGen job.Refers earlier target)
    {reference : String} (member : reference ∈ referencesOf value)
    (leads : job.target? home reference = some target) :
    ∃ key, job.Filed key target ∧ key ∈ all ∧ key ∉ chain := by
  obtain ⟨key, link⟩ := job.exists_link leads
  have filed : job.Filed key target :=
    ⟨home, enclosed.met home here, reference, inside reference member,
      (link?_eq_some.mp link).2, leads⟩
  refine ⟨key, filed, enclosed.keys home here reference (inside reference member) key link, ?_⟩
  intro again
  obtain ⟨earlier, filed', reaches⟩ := above key again
  obtain rfl := plain.filed_unique filed filed'
  exact acyclic reference member target leads target .refl (reaches reference member target leads)

/-- The chain holds the targets that are inlined inside each other around the value. -/
theorem Enclosed.inlined_isSome {depth : Nat} (distinct : chain.Nodup)
    (listed : ∀ key ∈ chain, key ∈ all)
    (above : ∀ key ∈ chain, ∃ earlier, job.Filed key earlier ∧ ∀ reference ∈ referencesOf value,
      ∀ target, job.target? home reference = some target → TransGen job.Refers earlier target)
    (enough : all.length ≤ chain.length + depth) : (job.inlined depth home value).isSome := by
  induction depth generalizing chain home value with
  | zero =>
      rw [inlined_eq]
      refine inlineWith_isSome value fun reference member given found => ?_
      obtain ⟨target, leads, -⟩ := Option.map_eq_some_iff.mp found
      obtain ⟨key, -, known, new⟩ := enclosed.filed_apart plain here inside acyclic above member leads
      have longer : (key :: chain).length ≤ all.length :=
        ((List.nodup_cons.mpr ⟨new, distinct⟩).subperm
          (List.cons_subset.mpr ⟨known, listed⟩)).length_le
      rw [List.length_cons] at longer
      omega
  | succ depth ih =>
      rw [inlined_eq]
      refine inlineWith_isSome value fun reference member given found => ?_
      obtain ⟨target, leads, rfl⟩ := Option.map_eq_some_iff.mp found
      obtain ⟨key, filed, known, new⟩ :=
        enclosed.filed_apart plain here inside acyclic above member leads
      refine ih (enclosed.onward home target here ⟨reference, inside reference member, leads⟩)
        (fun _ within => within) (acyclic.leads member leads) (List.nodup_cons.mpr ⟨new, distinct⟩)
        (List.forall_mem_cons.mpr ⟨known, listed⟩) ?_ (by rw [List.length_cons]; omega)
      intro other among
      rcases List.mem_cons.mp among with rfl | earlier
      · exact ⟨target, filed, fun next within _ leads => .single ⟨next, within, leads⟩⟩
      · obtain ⟨before, filed, reaches⟩ := above other earlier
        exact ⟨before, filed, fun next within _ leads' =>
          (reaches reference member target leads).tail ⟨next, within, leads'⟩⟩

end Enclosed

end Job

end ApiCompiler.Loading
