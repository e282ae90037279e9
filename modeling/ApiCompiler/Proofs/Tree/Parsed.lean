import ApiCompiler.Loading.Content
import ApiCompiler.Proofs.Tree.Reordered
import ApiCompiler.Proofs.World.Failing

/-!
Trees that documents hold can be compared, and no object in them has two members of the same name.
-/

namespace ApiCompiler

open Members

mutual
def Value.decideEq : (a b : Value) → Decidable (a = b)
  | .scalar s, .scalar t => decidable_of_iff (s = t) (by simp)
  | .list items, .list items' =>
      have := decideItemsEq items items'
      decidable_of_iff (items = items') (by simp)
  | .object members, .object members' =>
      have := decideMembersEq members members'
      decidable_of_iff (members = members') (by simp)
  | .scalar _, .list _ | .scalar _, .object _ | .list _, .scalar _ | .list _, .object _
  | .object _, .scalar _ | .object _, .list _ => isFalse nofun

def Value.decideItemsEq : (a b : List Value) → Decidable (a = b)
  | [], [] => isTrue rfl
  | item :: items, item' :: items' =>
      have := decideEq item item'
      have := decideItemsEq items items'
      decidable_of_iff (item = item' ∧ items = items') (by simp)
  | [], _ :: _ | _ :: _, [] => isFalse nofun

def Value.decideMembersEq : (a b : List (Scalar × Value)) → Decidable (a = b)
  | [], [] => isTrue rfl
  | (name, value) :: members, (name', value') :: members' =>
      have := decideEq value value'
      have := decideMembersEq members members'
      decidable_of_iff ((name = name' ∧ value = value') ∧ members = members') (by simp)
  | [], _ :: _ | _ :: _, [] => isFalse nofun
end

instance : DecidableEq Value := Value.decideEq

theorem ReorderedMembers.ofList {members : Members Value}
    (each : ReorderedMembers members members) :
    Reordered (.object (Members.ofList members)) (.object (Members.ofList members)) := by
  have empty : Distinct ([] : Members Value) := .nil
  exact .object (empty.override members) (ReorderedMembers.override .nil each) (.refl _)

theorem ReorderedItems.of_forall {items : List Value} (each : ∀ item ∈ items, Reordered item item) :
    ReorderedItems items items := by
  induction items with
  | nil => exact .nil
  | cons item items ih =>
      rw [List.forall_mem_cons] at each
      exact .cons each.1 (ih each.2)

theorem ReorderedMembers.of_forall {members : Members Value}
    (each : ∀ member ∈ members, Reordered member.2 member.2) : ReorderedMembers members members := by
  induction members with
  | nil => exact .nil
  | cons member members ih =>
      rw [List.forall_mem_cons] at each
      exact .cons each.1 (ih each.2)

namespace Json

theorem readWord?_reordered {text rest : List Char} {value : Value}
    (found : readWord? text = some (value, rest)) : Reordered value value := by
  obtain ⟨⟨word, result⟩, inside, found⟩ := List.exists_of_findSome?_eq_some found
  obtain ⟨_, -, same⟩ := Option.map_eq_some_iff.mp found
  cases same
  have scalars : ∀ pair ∈ words, Reordered pair.2 pair.2 := by
    simp only [words, List.forall_mem_cons]
    exact ⟨.scalar _, .scalar _, .scalar _, .scalar _, .scalar _, .scalar _, nofun⟩
  exact scalars _ inside

theorem readNumber_reordered {text rest : List Char} {value : Value}
    (found : readNumber text = .ok (value, rest)) : Reordered value value := by
  unfold readNumber at found
  repeat' split at found
  -- Each way through ends in a fault or in a number.
  all_goals cases found
  all_goals exact .scalar _

/-- With so much fuel, an object that is read has every name once, and so has any inside. -/
structure ReadsReordered (fuel : Nat) : Prop where
  value : ∀ {text value rest}, readValue fuel text = .ok (value, rest) → Reordered value value
  members : ∀ {text members rest}, readMembers fuel text = .ok (members, rest) →
    ReorderedMembers members members
  items : ∀ {text items rest}, readItems fuel text = .ok (items, rest) → ReorderedItems items items

variable {fuel : Nat} (reads : ReadsReordered fuel)
include reads

theorem ReadsReordered.nextValue {text rest : List Char} {value : Value}
    (found : readValue (fuel + 1) text = .ok (value, rest)) : Reordered value value := by
  unfold readValue at found
  split at found
  · obtain ⟨_, -, found⟩ := bind_eq_ok.mp found
    cases found
    exact .scalar _
  · split at found
    · cases found
      exact .object .nil .nil (.refl _)
    · obtain ⟨⟨inside, _⟩, read, found⟩ := bind_eq_ok.mp found
      cases found
      exact (reads.members read).ofList
  · split at found
    · cases found
      exact .list .nil
    · obtain ⟨⟨inside, _⟩, read, found⟩ := bind_eq_ok.mp found
      cases found
      exact .list (reads.items read)
  · split at found
    · rename_i word
      cases found
      exact readWord?_reordered word
    · exact readNumber_reordered found

theorem ReadsReordered.nextMembers {text rest : List Char} {members : List (Scalar × Value)}
    (found : readMembers (fuel + 1) text = .ok (members, rest)) :
    ReorderedMembers members members := by
  unfold readMembers at found
  split at found
  · obtain ⟨⟨_, _⟩, -, found⟩ := bind_eq_ok.mp found
    dsimp only at found
    split at found
    · obtain ⟨⟨first, _⟩, read, found⟩ := bind_eq_ok.mp found
      dsimp only at found
      split at found
      · cases found
        exact .cons (reads.value read) .nil
      · obtain ⟨⟨others, _⟩, later, found⟩ := bind_eq_ok.mp found
        cases found
        exact .cons (reads.value read) (reads.members later)
      · cases found
    · cases found
  · cases found

theorem ReadsReordered.nextItems {text rest : List Char} {items : List Value}
    (found : readItems (fuel + 1) text = .ok (items, rest)) : ReorderedItems items items := by
  unfold readItems at found
  obtain ⟨⟨first, _⟩, read, found⟩ := bind_eq_ok.mp found
  dsimp only at found
  split at found
  · cases found
    exact .cons (reads.value read) .nil
  · obtain ⟨⟨others, _⟩, later, found⟩ := bind_eq_ok.mp found
    cases found
    exact .cons (reads.value read) (reads.items later)
  · cases found

omit reads in
theorem readsReordered : (fuel : Nat) → ReadsReordered fuel
  | 0 => ⟨nofun, nofun, nofun⟩
  | fuel + 1 =>
      have reads := readsReordered fuel
      ⟨reads.nextValue, reads.nextMembers, reads.nextItems⟩

omit reads in
theorem read_reordered {text : String} {value : Value} (found : read text = .ok value) :
    Reordered value value := by
  unfold read at found
  dsimp only at found
  split at found
  · rename_i result rest read
    split at found
    · cases found
      split at read
      · cases read
      · exact (readsReordered _).value read
    · cases found
  · cases found
  · cases found

end Json

namespace Yaml

theorem both_eq_ok {α β : Type} {first : Built α} {second : Built β} {a : α} {b : β}
    (found : both first second = .ok (a, b)) : first = .ok a ∧ second = .ok b := by
  cases first <;> cases second <;> cases found
  exact ⟨rfl, rfl⟩

/-- What is built of a list is built of its parts. -/
theorem exists_of_foldr_both {α β : Type} {build : α → Built β} {list : List α} {results : List β}
    (found : list.foldr (fun a rest => (fun (b, results) => b :: results) <$> both (build a) rest)
      (.ok []) = .ok results) : ∀ b ∈ results, ∃ a, build a = .ok b := by
  induction list generalizing results with
  | nil =>
      cases found
      exact nofun
  | cons a list ih =>
      obtain ⟨⟨first, others⟩, parts, rfl⟩ := map_eq_ok.mp found
      obtain ⟨here, later⟩ := both_eq_ok parts
      exact List.forall_mem_cons.mpr ⟨⟨a, here⟩, ih later⟩

theorem valueAt_reordered {fuel depth : Nat} {node : Node} {value : Value}
    (found : valueAt fuel depth node = .ok value) : Reordered value value := by
  induction fuel generalizing depth node value with
  | zero => cases found
  | succ fuel ih =>
      unfold valueAt at found
      split at found
      · obtain ⟨s, -, rfl⟩ := map_eq_ok.mp found
        exact .scalar s
      · split at found
        · cases found
        · obtain ⟨items, each, rfl⟩ := map_eq_ok.mp found
          refine .list (.of_forall fun item inside => ?_)
          obtain ⟨node, built⟩ := exists_of_foldr_both each item inside
          exact ih built
      · split at found
        · cases found
        · obtain ⟨pairs, -, found⟩ := bind_eq_ok.mp found
          obtain ⟨members, each, found⟩ := bind_eq_ok.mp found
          cases found
          refine ReorderedMembers.ofList (.of_forall fun member inside => ?_)
          obtain ⟨pair, built⟩ := exists_of_foldr_both each member inside
          exact ih (both_eq_ok built).2

theorem read_reordered {text : String} {value : Value} (found : read text = .ok value) :
    Reordered value value := by
  unfold read at found
  obtain ⟨tokens, -, found⟩ := bind_eq_ok.mp found
  obtain ⟨node, -, found⟩ := bind_eq_ok.mp found
  split at found
  · cases found
    exact .scalar _
  · rename_i node
    rw [Node.value] at found
    cases built : valueAt _ 0 node with
    | error fault => rw [built] at found; cases found
    | ok result =>
        rw [built] at found
        cases found
        exact valueAt_reordered built

end Yaml

namespace Loading

theorem parse_reordered {isYaml : Bool} {source text : String} {value : Value}
    (found : parse Yaml.read isYaml source text = .ok value) : Reordered value value := by
  rw [parse] at found
  split at found
  · cases read : Yaml.read text with
    | error fault => rw [read] at found; cases found
    | ok result =>
        rw [read] at found
        cases found
        exact Yaml.read_reordered read
  · split at found
    · rename_i result read
      cases found
      exact Json.read_reordered read
    · cases found
    · cases found

theorem content_reordered {world : World} (reads : world.access.yaml = Yaml.read)
    {followsRedirections : Bool} {location : String} {value : Value}
    (found : content world followsRedirections location = .ok value) :
    Reordered value value := by
  rw [content] at found
  split at found
  · rw [webContent, reads] at found
    split at found
    · cases found
    · cases found
    · exact parse_reordered found
  · rw [fileContent] at found
    split at found
    · cases found
    · cases found
    · split at found
      · cases found
      · obtain ⟨text, -, found⟩ := bind_eq_ok.mp found
        rw [reads] at found
        exact parse_reordered found

end Loading

end ApiCompiler
