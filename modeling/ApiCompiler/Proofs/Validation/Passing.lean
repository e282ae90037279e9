import Mathlib.Data.List.Forall2
import ApiCompiler.Validation.Shape

/-!
What a check that passes says of the parts it was made from.
-/

namespace ApiCompiler

section Forall₂

variable {α β : Type} {rel : α → β → Prop} {first : List α} {second : List β}

theorem exists_of_mem_left (related : List.Forall₂ rel first second) {a : α} (inside : a ∈ first) :
    ∃ b ∈ second, rel a b := by
  induction related with
  | nil => cases inside
  | @cons a' b' first second here later ih =>
      rcases List.mem_cons.mp inside with rfl | inside
      · exact ⟨b', List.mem_cons_self, here⟩
      · obtain ⟨b, there, related⟩ := ih inside
        exact ⟨b, List.mem_cons_of_mem _ there, related⟩

theorem exists_of_mem_right (related : List.Forall₂ rel first second) {b : β} (inside : b ∈ second) :
    ∃ a ∈ first, rel a b :=
  have flipped : List.Forall₂ (flip rel) second first := List.Forall₂.flip related
  exists_of_mem_left flipped inside

end Forall₂

namespace Check

variable {α β : Type}

theorem map_eq_ok {f : α → β} {check : Check α} {b : β} :
    f <$> check = .ok b ↔ ∃ a, check = .ok a ∧ f a = b := by
  cases check with
  | ok a =>
      refine ⟨fun passed => ⟨a, rfl, Check.ok.inj passed⟩, ?_⟩
      rintro ⟨_, ⟨⟩, rfl⟩
      rfl
  | bad issues =>
      constructor
      · rintro ⟨⟩
      · rintro ⟨_, ⟨⟩, -⟩

theorem seq_eq_ok {first : Check (α → β)} {second : Check α} {b : β} :
    first <*> second = .ok b ↔ ∃ f a, first = .ok f ∧ second = .ok a ∧ f a = b := by
  constructor
  · intro passed
    cases first with
    | bad issues => cases second <;> cases passed
    | ok f =>
        cases second with
        | bad issues => cases passed
        | ok a => exact ⟨f, a, rfl, rfl, Check.ok.inj passed⟩
  · rintro ⟨f, a, rfl, rfl, rfl⟩
    rfl

theorem within_eq_ok {step : String} {check : Check α} {a : α} :
    check.within step = .ok a ↔ check = .ok a := by
  cases check with
  | ok a => exact Iff.rfl
  | bad issues => constructor <;> rintro ⟨⟩

theorem all_eq_ok {checks : List (Check α)} {values : List α} :
    Check.all checks = .ok values ↔
      List.Forall₂ (fun check value => check = .ok value) checks values := by
  induction checks generalizing values with
  | nil =>
      rw [List.forall₂_nil_left_iff]
      exact ⟨fun passed => (Check.ok.inj passed).symm, fun empty => congrArg _ empty.symm⟩
  | cons first checks ih =>
      rw [List.forall₂_cons_left_iff]
      change List.cons <$> first <*> Check.all checks = .ok values ↔ _
      rw [seq_eq_ok]
      constructor
      · rintro ⟨_, rest, here, later, rfl⟩
        obtain ⟨a, passed, rfl⟩ := map_eq_ok.mp here
        exact ⟨a, rest, passed, ih.mp later, rfl⟩
      · rintro ⟨a, rest, here, later, rfl⟩
        exact ⟨_, rest, map_eq_ok.mpr ⟨a, here, rfl⟩, ih.mpr later, rfl⟩

end Check

variable {ν α : Type} [Layered ν] {f : ν → Check α} {v : ν}

theorem Shape.text_eq_ok {text : String} :
    Shape.text v = .ok text ↔ Layered.layer v = .scalar (.text text) := by
  rw [Shape.text]
  split
  · rename_i s here
    rw [here]
    exact ⟨fun passed => by cases passed; rfl, fun same => by cases same; rfl⟩
  · rename_i other
    exact ⟨fun passed => (nomatch passed), fun here => absurd here (other text)⟩

theorem Shape.list_eq_ok {values : List α} : Shape.list f v = .ok values ↔ ∃ items,
    Layered.layer v = .list items ∧
      List.Forall₂ (fun item value => f item = .ok value) items values := by
  rw [Shape.list]
  split
  · rename_i items here
    rw [here, Shape.checkItems, Check.all_eq_ok, List.forall₂_map_left_iff]
    simp only [Check.within_eq_ok]
    rw [← List.forall₂_map_left_iff (f := Prod.fst) (R := fun item value => f item = .ok value),
      List.zipIdx_map_fst]
    exact ⟨fun passed => ⟨items, rfl, passed⟩, fun ⟨_, same, passed⟩ => by cases same; exact passed⟩
  · rename_i other
    exact ⟨fun passed => (nomatch passed), fun ⟨items, here, _⟩ => absurd here (other items)⟩

theorem Shape.dictionary_eq_ok {named : List (String × α)} (passed : Shape.dictionary f v = .ok named) :
    ∃ members, Layered.layer v = .object members ∧ List.Forall₂ (fun member entry =>
      member.1 = .text entry.1 ∧ f member.2 = .ok entry.2) members named := by
  rw [Shape.dictionary] at passed
  split at passed
  · rename_i members here
    rw [Check.all_eq_ok, List.forall₂_map_left_iff] at passed
    refine ⟨members, here, passed.imp ?_⟩
    rintro ⟨name, value⟩ entry passed
    rw [Check.within_eq_ok, Check.seq_eq_ok] at passed
    obtain ⟨_, a, named, checked, rfl⟩ := passed
    obtain ⟨key, isText, rfl⟩ := Check.map_eq_ok.mp named
    refine ⟨?_, checked⟩
    cases name with
    | text s =>
        cases isText
        rfl
    | _ => cases isText
  · cases passed

theorem Members.nullable_eq_ok {name : String} {members : Members ν} {member : Member α}
    (passed : members.nullable [name] f = .ok member) :
    (member.toOption = none ∧ ∀ value, members.find? name = some value →
        Layered.layer value = .scalar .null) ∨
      ∃ value a, members.find? name = some value ∧ f value = .ok a ∧ member.toOption = some a := by
  rw [Members.nullable, Members.pick, List.findSome?_cons, List.findSome?_nil] at passed
  cases found : members.find? name with
  | none =>
      rw [found] at passed
      cases passed
      exact .inl ⟨rfl, fun _ absurd => nomatch absurd⟩
  | some value =>
      rw [found] at passed
      dsimp only [Option.map_some] at passed
      split at passed
      · rename_i here
        cases passed
        refine .inl ⟨rfl, ?_⟩
        rintro _ ⟨⟩
        exact here
      · obtain ⟨a, checked, rfl⟩ := Check.map_eq_ok.mp passed
        exact .inr ⟨value, a, rfl, Check.within_eq_ok.mp checked, rfl⟩

end ApiCompiler
