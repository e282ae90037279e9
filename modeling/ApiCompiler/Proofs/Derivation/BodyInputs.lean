import ApiCompiler.Proofs.Derivation.References
import ApiCompiler.Proofs.Json.Shown

/-!
Inputs of a request body: one for each property, where the first definition of a property gives the
place and the last one the content, and whichever part requires it makes it required.
-/

namespace ApiCompiler.Derivation

open Openapi Component

/-- The type that counts is one that stands alone, or of several the first that is not null. -/
inductive IsKind : Option TypeName → Option String → Prop
  | untyped : IsKind none none
  | one (name : String) : IsKind (some (.one name)) (some name)
  | several {nulls : List String} {name : String} {later : List String}
      (before : ∀ null ∈ nulls, null = "null") (found : name ≠ "null") :
      IsKind (some (.many (nulls ++ name :: later))) (some name)
  | nulls {nulls : List String} (each : ∀ null ∈ nulls, null = "null") :
      IsKind (some (.many nulls)) none

/-- What is entered for a type, and how it is converted; only a text may be left empty. -/
inductive Enters : Option String → String → Conversion → Prop
  | integer : Enters (some "integer") "string" ⟨"toNumber", false⟩
  | number : Enters (some "number") "string" ⟨"toNumber", false⟩
  | truth : Enters (some "boolean") "boolean" ⟨"toBool", false⟩
  | text {kind : Option String}
      (other : ∀ name ∈ kind, name ≠ "integer" ∧ name ≠ "number" ∧ name ≠ "boolean") :
      Enters kind "string" ⟨"toString", true⟩

/-- A choice stands for what its value shows, and is labelled by the words of that if it has any. -/
structure IsChoice (value : Value) (choice : Choice) : Prop where
  shown : value.Shows choice.value
  label : choice.label = if choice.value.startCase = "" then choice.value else choice.value.startCase

/-- One choice for each value but null, in order; without any, the input is entered freely. -/
def Offers (values : List Value) : Option (List Choice) → Prop
  | none => ∀ value ∈ values, value = .scalar .null
  | some choices => choices ≠ [] ∧
      List.Forall₂ IsChoice (values.filter fun value => !value.isNull) choices

/-- Type, default, example, choices and comments of an input are those of a schema. -/
structure Describes (schema : Schema) (input : Input) : Prop where
  kind : ∃ kind conversion, IsKind schema.type kind ∧ Enters kind input.type conversion ∧
    input.conversion = some conversion
  default : Option.Rel Value.Shows schema.default input.default
  sample : Option.Rel Value.Shows schema.sample input.sample
  choices : Offers schema.offered input.choices
  comments : input.comments = schema.description.filter fun text => !text.trimBlanks.isEmpty

theorem isKind_primaryType (schema : Schema) : IsKind schema.type schema.primaryType := by
  unfold Schema.primaryType
  rcases schema.type with _ | name | names
  · exact .untyped
  · exact .one name
  · simp only
    rcases found : names.find? (· ≠ "null") with _ | name
    · exact .nulls (by simpa using found)
    · obtain ⟨notNull, nulls, later, rfl, before⟩ := List.find?_eq_some_iff_append.mp found
      exact .several (by simpa using before) (by simpa using notNull)

theorem enters_inputType (schema : Schema) :
    Enters schema.primaryType (inputType (some schema)).1 (inputType (some schema)).2 := by
  rw [inputType, Option.bind_some]
  split
  · rename_i kind
    rw [kind]
    exact .integer
  · rename_i kind
    rw [kind]
    exact .number
  · rename_i kind
    rw [kind]
    exact .truth
  · rename_i notInteger notNumber notBoolean
    refine .text fun name isKind => ⟨?_, ?_, ?_⟩
    · rintro rfl
      exact notInteger isKind
    · rintro rfl
      exact notNumber isKind
    · rintro rfl
      exact notBoolean isKind

theorem shows_of_display {value : Value} {text : String} (ok : display value = .ok text) :
    value.Shows text := by
  rw [display] at ok
  rcases shown : value.display with fault | text'
  · rw [shown] at ok
    cases ok
  · rw [shown] at ok
    cases ok
    exact Value.shows_of_display shown

theorem rel_shows_of_mapM {value : Option Value} {text : Option String}
    (ok : value.mapM display = .ok text) : Option.Rel Value.Shows value text := by
  cases value with
  | none =>
      cases ok
      exact .none
  | some value =>
      obtain ⟨text, shown, rfl⟩ := map_eq_ok.mp ok
      exact .some (shows_of_display shown)

theorem isChoice_of_display {value : Value} {choice : Choice}
    (ok : (display value >>= fun text => .ok ⟨orElse text.startCase text, text⟩) = .ok choice) :
    IsChoice value choice := by
  obtain ⟨text, shown, same⟩ := bind_eq_ok.mp ok
  obtain rfl := Except.ok.inj same
  exact ⟨shows_of_display shown, by simp [orElse]⟩

theorem eq_null_of_isNull {value : Value} (isNull : value.isNull = true) :
    value = .scalar .null := by
  unfold Value.isNull at isNull
  split at isNull
  · rfl
  · cases isNull

theorem offers_choicesOf {values : List Value} {choices : Option (List Choice)}
    (ok : choicesOf values = .ok choices) : Offers values choices := by
  obtain ⟨made, each, same⟩ := bind_eq_ok.mp ok
  have chosen := (forall₂_of_mapM_eq_ok each).imp fun _ _ => isChoice_of_display
  cases same
  split
  · rename_i nothing
    rw [List.isEmpty_iff.mp nothing, List.forall₂_nil_right_iff] at chosen
    intro value member
    have isNull := List.filter_eq_nil_iff.mp chosen value member
    exact eq_null_of_isNull (by simpa using isNull)
  · rename_i some
    exact ⟨fun nothing => some (List.isEmpty_iff.mpr nothing), chosen⟩

theorem filter_choicesOf {values : List Value} {choices : Option (List Choice)}
    (ok : choicesOf values = .ok choices) :
    (choices.filter fun choices => !choices.isEmpty) = choices := by
  obtain ⟨made, -, same⟩ := bind_eq_ok.mp ok
  cases same
  split
  · rfl
  · rename_i some
    simp [some]

theorem offered_of_inputChoices {schema : Schema} {location : String}
    {choices : Option (List Choice)} (ok : inputChoices (some schema) location = .ok choices) :
    choicesOf schema.offered = .ok choices := by
  rw [← ok, inputChoices_eq]
  intro refers
  obtain ⟨target, place, failed⟩ := inputChoices_of_choicesRefer refers location
  rw [ok] at failed
  cases failed

theorem describes_buildInput {schema : Schema} {source : InputSource} {seen seen' : List String}
    {input : Input} (given : source.schema = some schema) (alone : source.sample = none)
    (described : source.comments = schema.description)
    (built : buildInput source seen = .ok (input, seen')) : Describes schema input := by
  simp only [buildInput, bind_eq_ok, given, alone, described, Option.bind_some, Option.or_none] at built
  obtain ⟨default, isDefault, sample, isSample, choices, isChoices, same⟩ := built
  have offered := offered_of_inputChoices isChoices
  cases same
  refine ⟨⟨_, _, isKind_primaryType schema, enters_inputType schema, rfl⟩,
    rel_shows_of_mapM isDefault, rel_shows_of_mapM isSample, ?_, rfl⟩
  rw [Input.tidy, filter_choicesOf offered]
  exact offers_choicesOf offered

theorem required_buildInput {source : InputSource} {seen seen' : List String} {input : Input}
    (built : buildInput source seen = .ok (input, seen')) : input.required = source.required := by
  simp only [buildInput, bind_eq_ok] at built
  obtain ⟨_, -, _, -, _, -, same⟩ := built
  cases same
  rfl

theorem buildEach_forall₂ {α : Type} {build : α → List String → Except Problem (Input × List String)}
    {made : α → Input → Prop}
    (each : ∀ source seen input seen', build source seen = .ok (input, seen') → made source input)
    {sources : List α} {seen seen' : List String} {inputs : List Input}
    (built : buildEach build sources seen = .ok (inputs, seen')) :
    List.Forall₂ made sources inputs := by
  induction sources generalizing seen inputs with
  | nil =>
      cases built
      exact .nil
  | cons source sources ih =>
      simp only [buildEach, bind_eq_ok] at built
      obtain ⟨⟨input, seen₁⟩, first, ⟨rest, seen₂⟩, later, same⟩ := built
      cases same
      exact .cons (each _ _ _ _ first) (ih later)

/-- The input for a property of a body. -/
structure StandsFor (schema : Schema) (property : String × Schema) (input : Input) : Prop where
  name : input.wireName = property.1
  content : Describes property.2 input
  required : input.required = some (decide (∃ part ∈ schema.parts, property.1 ∈ part.required))

/--
The inputs of a body are its properties in the order in which their names come first, each as it is
defined last and without those that are then only read; required are those that any part requires.
-/
theorem buildBodyInputs_merged {schema : Schema} {seen seen' : List String} {location : String}
    {inputs : List Input} (built : buildBodyInputs schema seen location = .ok (inputs, seen')) :
    ∃ properties : List (String × Schema),
      properties.map Prod.fst = (schema.definitions.map Prod.fst).eraseDups ∧
      (∀ property ∈ properties,
        IsLast Prod.fst (property.1, .inline property.2) schema.definitions) ∧
      List.Forall₂ (StandsFor schema)
        (properties.filter fun property => !property.2.isReadOnly) inputs := by
  obtain ⟨⟨properties, required⟩, flat, built⟩ := bind_eq_ok.mp built
  obtain ⟨merged, rfl⟩ := flattenProperties_eq_ok flat
  refine ⟨properties, ?_, fun property member => ?_, buildEach_forall₂ ?_ built⟩
  · rw [← Named.map_fst_ofList, merged, List.map_map]
    rfl
  · rw [← Named.mem_ofList_iff, merged]
    exact List.mem_map.mpr ⟨property, member, rfl⟩
  · rintro ⟨name, property⟩ seen input seen' one
    obtain ⟨wireName, -⟩ := buildInput_ok one
    refine ⟨wireName, describes_buildInput rfl rfl rfl one, ?_⟩
    rw [required_buildInput one]
    simp [List.contains_eq_mem]

def plainProperty (readOnly : Bool) (default : Member Value) : Schema :=
  .mk .absent (.given (.one "string")) .absent .absent default .absent .absent (.given readOnly)
    .absent .absent .absent []

/-- Two definitions of `name`, a property that comes to be only read, and one that no longer is. -/
def layeredSchema : Schema :=
  .mk .absent .absent .absent .absent .absent .absent (.given ["note"]) .absent
    (.given [.inline (.mk .absent .absent .absent .absent .absent .absent (.given ["name"]) .absent
      .absent
      (.given [("note", .inline (plainProperty false .absent)),
        ("id", .inline (plainProperty true .absent)),
        ("name", .inline (plainProperty false (.given (.text "new"))))])
      .absent [])])
    (.given [("name", .inline (plainProperty true (.given (.text "old")))),
      ("id", .inline (plainProperty false .absent))])
    .absent []

theorem buildBodyInputs_merged_layered :
    ∃ inputs seen, buildBodyInputs layeredSchema ["note"] "layers" = .ok (inputs, seen) ∧
      ∃ properties : List (String × Schema), properties.map Prod.fst = ["name", "id", "note"] ∧
        (∀ property ∈ properties,
          IsLast Prod.fst (property.1, .inline property.2) layeredSchema.definitions) ∧
        List.Forall₂ (StandsFor layeredSchema)
          (properties.filter fun property => !property.2.isReadOnly) inputs := by
  have succeeds : (buildBodyInputs layeredSchema ["note"] "layers").isOk = true := by
    decide +kernel
  have names : (layeredSchema.definitions.map Prod.fst).eraseDups = ["name", "id", "note"] := by
    decide +kernel
  rcases built : buildBodyInputs layeredSchema ["note"] "layers" with problem | ⟨inputs, seen⟩
  · rw [built] at succeeds
    cases succeeds
  · obtain ⟨properties, inOrder, last, stand⟩ := buildBodyInputs_merged built
    exact ⟨inputs, seen, rfl, properties, inOrder.trans names, last, stand⟩

end ApiCompiler.Derivation
