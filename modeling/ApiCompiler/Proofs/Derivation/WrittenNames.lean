import ApiCompiler.Derivation.Inputs
import ApiCompiler.Proofs.Loading.Bareness
import ApiCompiler.Proofs.Validation.Passing

/-!
The names of properties and of required ones: those in a schema are the ones that were written.
-/

namespace ApiCompiler

namespace Openapi

theorem Node.check_inline {α : Type} {f : Expansion → Check α} {expansion : Expansion}
    {node : Node α} (passed : Node.check f expansion = .ok node)
    (settled : expansion.reference? = none) : ∃ a, node = .inline a ∧ f expansion = .ok a := by
  have inline (passed : Node.inline <$> (f expansion).within inlineStep = .ok node) :
      ∃ a, node = .inline a ∧ f expansion = .ok a := by
    obtain ⟨a, checked, rfl⟩ := Check.map_eq_ok.mp passed
    exact ⟨a, rfl, Check.within_eq_ok.mp checked⟩
  cases expansion with
  | scalar s => exact inline passed
  | list items => exact inline passed
  | object members plain schema =>
      rw [Node.check] at passed
      split at passed
      · rename_i refers
        obtain ⟨value, found⟩ := Option.isSome_iff_exists.mp refers
        obtain ⟨reference, checked, -⟩ := Check.map_eq_ok.mp passed
        obtain ⟨_, _, checked, -, -⟩ := Check.seq_eq_ok.mp (Check.within_eq_ok.mp checked)
        obtain ⟨target, isText, -⟩ := Check.map_eq_ok.mp checked
        rw [Members.required, Members.pick, List.findSome?_cons, found] at isText
        have isText := Shape.text_eq_ok.mp (Check.within_eq_ok.mp isText)
        rw [Expansion.reference?, found, Option.bind_some] at settled
        cases value with
        | scalar s => cases isText; cases settled
        | list items => cases isText
        | object members => cases isText
      · exact inline passed

/-- What a schema is composed of, has and requires was read from the members of those names. -/
theorem Schema.ofMembers_ok {members : Members Expansion} {schema : Schema}
    (passed : Schema.ofMembers members = .ok schema) :
    ∃ required allOf properties,
      members.nullable ["required"] (Shape.list Shape.text) = .ok required ∧
      members.nullable ["allOf"] (Shape.list (Node.check check)) = .ok allOf ∧
      members.nullable ["properties"] (Shape.dictionary (Node.check check)) = .ok properties ∧
      schema.required = required.toOption.getD [] ∧ schema.allOf = allOf.toOption.getD [] ∧
      schema.properties = properties.toOption.getD [] := by
  simp only [Schema.ofMembers, Check.seq_eq_ok, Check.map_eq_ok] at passed
  obtain ⟨_, _, passed, -, rfl⟩ := passed
  obtain ⟨_, _, passed, -, rfl⟩ := passed
  obtain ⟨_, properties, passed, hasProperties, rfl⟩ := passed
  obtain ⟨_, allOf, passed, hasAllOf, rfl⟩ := passed
  obtain ⟨_, _, passed, -, rfl⟩ := passed
  obtain ⟨_, required, passed, hasRequired, rfl⟩ := passed
  obtain ⟨_, _, passed, -, rfl⟩ := passed
  obtain ⟨_, _, passed, -, rfl⟩ := passed
  obtain ⟨_, _, passed, -, rfl⟩ := passed
  obtain ⟨_, _, passed, -, rfl⟩ := passed
  obtain ⟨_, _, passed, -, rfl⟩ := passed
  obtain ⟨_, -, rfl⟩ := passed
  exact ⟨required, allOf, properties, hasRequired, hasAllOf, hasProperties, rfl, rfl, rfl⟩

end Openapi

namespace Derivation

open Openapi Loading

/-- The names of the properties that are written in a value. -/
def propertyNames (value : Value) : List String :=
  match value.member? "properties" with
  | some (.object named) => named.filterMap fun (name, _) => (Value.scalar name).text?
  | _ => []

/-- The names that a value says are required. -/
def requiredNames (value : Value) : List String :=
  match value.member? "required" with
  | some (.list names) => names.filterMap Value.text?
  | _ => []

/-- An object that holds its properties and the names of the required ones itself. -/
def WrittenOut (value : Value) : Prop :=
  ∃ members, IsOwn value members ∧ ∀ name ∈ ["properties", "required"], ∀ part,
    Members.find? name members = some part → InPlace part

theorem writtenOut_of {members : Members Value} (own : Loading.reference? members = none)
    (properties : ∀ named, members.find? "properties" = some (.object named) →
      Loading.reference? named = none)
    (required : ∀ named, members.find? "required" = some (.object named) →
      Loading.reference? named = none) : WrittenOut (.object members) := by
  refine ⟨members, ⟨rfl, own⟩, fun name inside part found => ?_⟩
  rcases List.mem_cons.mp inside with rfl | inside
  · rintro named rfl
    exact properties named found
  · obtain rfl := List.mem_singleton.mp inside
    rintro named rfl
    exact required named found

def Inline (schema : Schema) : Prop :=
  ∀ property ∈ schema.properties, ∃ value, property.2 = .inline value

section Reading

variable {becomes : Becomes} {scope : Scope} {raw : Value} {expansion : Expansion} {schema : Schema}

theorem names_of_forall₂ {members : Members Expansion} {named : List (String × Node Schema)}
    (passed : List.Forall₂ (fun member entry =>
      member.1 = .text entry.1 ∧ Node.check Schema.check member.2 = .ok entry.2) members named) :
    (members.map Prod.fst).filterMap (fun name => (Value.scalar name).text?) = named.map Prod.fst := by
  induction passed with
  | nil => rfl
  | @cons member entry members named here later ih =>
      rw [List.map_cons, List.map_cons, List.filterMap_cons, here.1, ih]
      rfl

theorem texts_of_forall₂ {items : List Value} {expansions : List Expansion} {texts : List String}
    (forms : List.Forall₂ (Forms Textless scope) items expansions)
    (passed : List.Forall₂ (fun item text => Shape.text item = .ok text) expansions texts) :
    items.filterMap Value.text? = texts := by
  induction forms generalizing texts with
  | nil =>
      cases passed
      rfl
  | @cons item expansion items expansions here later ih =>
      cases passed with
      | @cons _ text _ texts isText others =>
          have isText : expansion.text? = some text := by
            have layer := Shape.text_eq_ok.mp isText
            cases expansion <;> cases layer
            rfl
          have same : item.text? = some text := by
            cases written : item.text? with
            | none => rw [here.text? written] at isText; cases isText
            | some other =>
                cases item with
                | scalar s =>
                    rw [Forms] at here
                    rw [← isText, here, ← written]
                    exact (Expansion.text?_ofValue (.scalar s)).symm
                | list items => cases written
                | object members => cases written
          rw [List.filterMap_cons, same, ih others]

section Members

variable {members : Members Value} {own : Members Expansion} (inside : FormsMembers Textless scope members own)
include inside

theorem properties_of_nullable {properties : Member (List (String × Node Schema))}
    (inPlace : ∀ part, Members.find? "properties" members = some part → InPlace part)
    (passed : own.nullable ["properties"] (Shape.dictionary (Node.check Schema.check)) =
      .ok properties) :
    (properties.toOption.getD []).map Prod.fst = propertyNames (.object members) := by
  rw [propertyNames, Value.member?]
  rcases inside.find? "properties" with ⟨absent, absent'⟩ | ⟨value, part, found, found', here⟩
  · rw [absent]
    rcases Members.nullable_eq_ok passed with ⟨left, -⟩ | ⟨_, _, present, -⟩
    · rw [left]
      rfl
    · rw [absent'] at present
      cases present
  · rw [found]
    rcases Members.nullable_eq_ok passed with ⟨left, null⟩ | ⟨part', named, found'', checked, given⟩
    · have null := null part found'
      rw [left]
      rcases here.of_inPlace (inPlace value found) with
        ⟨s, rfl, rfl⟩ | ⟨_, _, rfl, rfl, -⟩ | ⟨_, _, rfl, rfl, -⟩
      · rfl
      · rfl
      · cases null
    · rw [found'] at found''
      cases found''
      obtain ⟨entries, layer, each⟩ := Shape.dictionary_eq_ok checked
      rw [given]
      rcases here.of_inPlace (inPlace value found) with
        ⟨s, rfl, rfl⟩ | ⟨_, _, rfl, rfl, -⟩ | ⟨raws, _, rfl, rfl, raws'⟩
      · cases layer
      · cases layer
      · cases layer
        have names := names_of_forall₂ each
        rw [raws'.names, List.filterMap_map] at names
        exact names.symm

theorem required_of_nullable {required : Member (List String)}
    (inPlace : ∀ part, Members.find? "required" members = some part → InPlace part)
    (passed : own.nullable ["required"] (Shape.list Shape.text) = .ok required) :
    required.toOption.getD [] = requiredNames (.object members) := by
  rw [requiredNames, Value.member?]
  rcases inside.find? "required" with ⟨absent, absent'⟩ | ⟨value, part, found, found', here⟩
  · rw [absent]
    rcases Members.nullable_eq_ok passed with ⟨left, -⟩ | ⟨_, _, present, -⟩
    · rw [left]
      rfl
    · rw [absent'] at present
      cases present
  · rw [found]
    rcases Members.nullable_eq_ok passed with ⟨left, null⟩ | ⟨part', texts, found'', checked, given⟩
    · have null := null part found'
      rw [left]
      rcases here.of_inPlace (inPlace value found) with
        ⟨s, rfl, rfl⟩ | ⟨_, _, rfl, rfl, -⟩ | ⟨_, _, rfl, rfl, -⟩
      · rfl
      · cases null
      · rfl
    · rw [found'] at found''
      cases found''
      obtain ⟨entries, layer, each⟩ := Shape.list_eq_ok.mp checked
      rw [given]
      rcases here.of_inPlace (inPlace value found) with
        ⟨s, rfl, rfl⟩ | ⟨items, _, rfl, rfl, items'⟩ | ⟨_, _, rfl, rfl, -⟩
      · cases layer
      · cases layer
        exact (texts_of_forall₂ items'.forall₂ each).symm
      · cases layer

end Members

theorem names_of_check (forms : Forms Textless scope raw expansion) (written : WrittenOut raw)
    (passed : Schema.check expansion = .ok schema) :
    schema.properties.map Prod.fst = propertyNames raw ∧ schema.required = requiredNames raw := by
  obtain ⟨members, own, inPlace⟩ := written
  obtain ⟨expansions, rfl, inside⟩ := forms.of_own own
  obtain ⟨rfl, -⟩ := own
  obtain ⟨required, _, properties, hasRequired, -, hasProperties, isRequired, -, isProperties⟩ :=
    Schema.ofMembers_ok passed
  rw [isRequired, isProperties]
  exact ⟨properties_of_nullable inside (inPlace _ (by simp)) hasProperties,
    required_of_nullable inside (inPlace _ (by simp)) hasRequired⟩

theorem inline_of_check {job : Loading.Job} (forms : Forms job.Turned scope raw expansion)
    (tidy : job.Tidy) (written : WrittenOut raw) (passed : Schema.check expansion = .ok schema) :
    Inline schema := by
  obtain ⟨members, own, inPlace⟩ := written
  obtain ⟨expansions, rfl, inside⟩ := forms.of_own own
  obtain ⟨_, _, properties, -, -, passed, -, -, isProperties⟩ := Schema.ofMembers_ok passed
  rw [Inline, isProperties]
  intro property member
  rcases Members.nullable_eq_ok passed with ⟨left, -⟩ | ⟨part, named, found, checked, given⟩
  · rw [left] at member
    cases member
  · rw [given] at member
    obtain ⟨entries, layer, each⟩ := Shape.dictionary_eq_ok checked
    rcases inside.find? "properties" with ⟨-, absent⟩ | ⟨value, part', found', same, here⟩
    · rw [absent] at found
      cases found
    · rw [same] at found
      cases found
      rcases here.of_inPlace (inPlace _ (by simp) value found') with
        ⟨s, rfl, rfl⟩ | ⟨_, _, rfl, rfl, -⟩ | ⟨raws, _, rfl, rfl, raws'⟩
      · cases layer
      · cases layer
      · cases layer
        obtain ⟨entry, inside, -, passed⟩ := exists_of_mem_right each member
        obtain ⟨raw, forms⟩ := raws'.mem inside
        obtain ⟨value, same, -⟩ := Node.check_inline passed (forms.reference? tidy)
        exact ⟨value, same⟩

end Reading

end Derivation

end ApiCompiler
