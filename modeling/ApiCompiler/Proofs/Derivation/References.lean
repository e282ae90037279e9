import ApiCompiler.Proofs.Derivation.Inputs
import ApiCompiler.Proofs.Json.Values
import ApiCompiler.Proofs.Tree.Latest

/-!
References that are left where inputs are looked for. If its values are JSON, the inputs of an
operation can be derived unless there is one; a reference that nothing looks at does no harm.
-/

namespace ApiCompiler

namespace Openapi

/-- The objects in place, without the references among them. -/
def Node.inPlace {α : Type} (nodes : List (Node α)) : List α :=
  nodes.filterMap fun
    | .inline value => some value
    | .reference _ => none

theorem Node.mem_inPlace {α : Type} {nodes : List (Node α)} {value : α} :
    value ∈ inPlace nodes ↔ .inline value ∈ nodes := by
  rw [inPlace, List.mem_filterMap]
  constructor
  · rintro ⟨node, member, same⟩
    cases node with
    | reference r => cases same
    | inline other =>
        cases same
        exact member
  · exact fun member => ⟨_, member, rfl⟩

theorem Node.inPlace_inline {α : Type} (values : List α) : inPlace (values.map .inline) = values := by
  induction values with
  | nil => rfl
  | cons value values ih => exact congrArg (value :: ·) ih

namespace Schema

/-- The schema itself and the schemas in place that it is composed of. -/
def parts (schema : Schema) : List Schema :=
  schema :: Node.inPlace schema.allOf

/-- All definitions of properties, in the order of the parts. -/
def definitions (schema : Schema) : List (String × Node Schema) :=
  schema.parts.flatMap properties

/-- The values to choose from are looked for in another schema, and that is a reference. -/
def ChoicesRefer (schema : Schema) : Prop :=
  schema.primaryType ≠ some "boolean" ∧ schema.choices = [] ∧
    ∃ r rest, schema.allOf = .reference r :: rest

def offered (schema : Schema) : List Value :=
  if schema.primaryType = some "boolean" then []
  else if schema.choices.isEmpty then
    match schema.allOf with
    | .inline first :: _ => first.choices
    | _ => []
  else schema.choices

/-- What an input may show of a schema is JSON. -/
structure HoldsJson (schema : Schema) : Prop where
  default : ∀ value ∈ schema.default, value.IsJson
  sample : ∀ value ∈ schema.sample, value.IsJson
  choices : ∀ part ∈ schema.parts, ∀ value ∈ part.choices, value.IsJson

theorem HoldsJson.offered {schema : Schema} (json : schema.HoldsJson) :
    ∀ value ∈ schema.offered, value.IsJson := by
  rw [Schema.offered]
  split
  · exact nofun
  · split
    · split
      · rename_i first rest composed
        refine json.choices first (List.mem_cons_of_mem _ (Node.mem_inPlace.mpr ?_))
        rw [composed]
        exact List.mem_cons_self
      · exact nofun
    · exact json.choices schema List.mem_cons_self

end Schema

end Openapi

/-- There is a result, or a reference is left, and that exactly if it is met. -/
structure FailsWhen {α : Type} (met : Prop) (result : Except Problem α) : Prop where
  fails : met → ∃ target place, result = .error (.declared (.unresolved target place))
  succeeds : ¬met → ∃ a, result = .ok a

namespace FailsWhen

variable {α β : Type} {met later : Prop}

theorem ok (a : α) : FailsWhen False (.ok a) :=
  ⟨False.elim, fun _ => ⟨a, rfl⟩⟩

theorem of_ok {result : Except Problem α} (ok : ∃ a, result = .ok a) : FailsWhen False result :=
  ⟨False.elim, fun _ => ok⟩

theorem congr {result : Except Problem α} (same : met ↔ later) (known : FailsWhen met result) :
    FailsWhen later result :=
  ⟨fun here => known.fails (same.mpr here), fun none => known.succeeds fun here => none (same.mp here)⟩

theorem bind {first : Except Problem α} {next : α → Except Problem β}
    (before : FailsWhen met first) (after : ∀ a, first = .ok a → FailsWhen later (next a)) :
    FailsWhen (met ∨ later) (first >>= next) := by
  by_cases here : met
  · obtain ⟨target, place, failed⟩ := before.fails here
    rw [failed]
    exact ⟨fun _ => ⟨target, place, rfl⟩, fun none => absurd (.inl here) none⟩
  · obtain ⟨a, made⟩ := before.succeeds here
    rw [made]
    exact (after a made).congr (by simp [here])

theorem map {first : Except Problem α} {f : α → β} (before : FailsWhen met first) :
    FailsWhen met (first >>= fun a => .ok (f a)) :=
  (before.bind fun a _ => ok (f a)).congr (or_iff_left not_false)

theorem mapM {make : α → Except Problem β} {met : α → Prop} {list : List α}
    (each : ∀ a ∈ list, FailsWhen (met a) (make a)) :
    FailsWhen (∃ a ∈ list, met a) (list.mapM make) := by
  induction list with
  | nil => exact (ok []).congr (by simp)
  | cons a list ih =>
      obtain ⟨first, others⟩ := List.forall_mem_cons.mp each
      rw [List.mapM_cons]
      refine (first.bind fun _ _ => (ih others).map).congr ?_
      simp

theorem unresolved_iff {result : Except Problem α} (known : FailsWhen met result) :
    (∃ target place, result = .error (.declared (.unresolved target place))) ↔ met := by
  constructor
  · rintro ⟨target, place, failed⟩
    by_contra none
    obtain ⟨a, made⟩ := known.succeeds none
    rw [failed] at made
    cases made
  · exact known.fails

end FailsWhen

namespace Derivation

open Openapi Component

theorem resolved_failsWhen {α : Type} (node : Node α) (location : String) :
    FailsWhen (∃ r, node = .reference r) (resolved node location) := by
  cases node with
  | inline value => exact (FailsWhen.ok value).congr (by simp)
  | reference r => exact ⟨fun _ => ⟨r.target, _, rfl⟩, fun none => absurd ⟨r, rfl⟩ none⟩

theorem resolved_eq_ok {α : Type} {node : Node α} {location : String} {value : α} :
    resolved node location = .ok value ↔ node = .inline value := by
  cases node <;> simp [resolved]

theorem optional_resolved_failsWhen {α : Type} (node : Option (Node α)) (location : String) :
    FailsWhen (∃ r, node = some (.reference r)) (node.mapM fun node => resolved node location) := by
  cases node with
  | none => exact (FailsWhen.ok none).congr (by simp)
  | some node =>
      refine (resolved_failsWhen node location).map.congr ?_
      simp

theorem optional_resolved_eq_ok {α : Type} {node : Option (Node α)} {location : String}
    {value : Option α} (ok : node.mapM (fun node => resolved node location) = .ok value) :
    node = value.map .inline := by
  cases node with
  | none =>
      cases ok
      rfl
  | some node =>
      obtain ⟨found, here, same⟩ := bind_eq_ok.mp ok
      cases same
      exact congrArg some (resolved_eq_ok.mp here)

/-! Values. -/

theorem display_ok {value : Value} (json : value.IsJson) : ∃ text, display value = .ok text := by
  obtain ⟨text, shown⟩ := json.display
  rw [display, shown]
  exact ⟨text, rfl⟩

theorem optional_display_ok {value : Option Value} (json : ∀ v ∈ value, v.IsJson) :
    ∃ text, value.mapM display = .ok text := by
  cases value with
  | none => exact ⟨none, rfl⟩
  | some value =>
      obtain ⟨text, shown⟩ := display_ok (json value rfl)
      rw [Option.mapM_some, shown]
      exact ⟨some text, rfl⟩

theorem choicesOf_ok {values : List Value} (json : ∀ value ∈ values, value.IsJson) :
    ∃ choices, choicesOf values = .ok choices := by
  have each (value : Value) (member : value ∈ values.filter (!·.isNull)) :
      FailsWhen False
        (display value >>= fun text => .ok (⟨orElse text.startCase text, text⟩ : Choice)) :=
    (FailsWhen.of_ok (display_ok (json value (List.mem_of_mem_filter member)))).map
  exact (FailsWhen.mapM each).map.succeeds (by simp)

theorem inputChoices_eq {schema : Schema} (found : ¬schema.ChoicesRefer) (location : String) :
    inputChoices (some schema) location = choicesOf schema.offered := by
  rw [inputChoices, Schema.offered]
  split
  · rfl
  · rename_i notBoolean
    by_cases none : schema.choices = []
    · simp only [none, List.isEmpty_nil, Bool.not_true, Bool.false_eq_true, if_false, if_true]
      rcases composed : schema.allOf with _ | ⟨_ | first, rest⟩
      · rfl
      · exact absurd ⟨notBoolean, none, _, _, composed⟩ found
      · rfl
    · simp [none]

theorem inputChoices_of_choicesRefer {schema : Schema} (refers : schema.ChoicesRefer)
    (location : String) :
    ∃ target place, inputChoices (some schema) location =
      .error (.declared (.unresolved target place)) := by
  obtain ⟨notBoolean, none, r, rest, composed⟩ := refers
  refine ⟨r.target, some (location ++ " allOf[0]"), ?_⟩
  rw [inputChoices, if_neg notBoolean, none, composed]
  rfl

theorem inputChoices_failsWhen {schema : Option Schema} (json : ∀ s ∈ schema, s.HoldsJson)
    (location : String) :
    FailsWhen (∃ s ∈ schema, s.ChoicesRefer) (inputChoices schema location) := by
  constructor
  · rintro ⟨s, rfl, refers⟩
    exact inputChoices_of_choicesRefer refers location
  · intro found
    cases schema with
    | none => exact ⟨none, rfl⟩
    | some s =>
        rw [inputChoices_eq fun refers => found ⟨s, rfl, refers⟩]
        exact choicesOf_ok (json s rfl).offered

/-! Single inputs. -/

theorem buildInput_failsWhen {source : InputSource} (json : ∀ s ∈ source.schema, s.HoldsJson)
    (sample : ∀ value ∈ source.sample, value.IsJson) (seen : List String) :
    FailsWhen (∃ s ∈ source.schema, s.ChoicesRefer) (buildInput source seen) := by
  have defaults : ∀ value ∈ source.schema.bind Schema.default, value.IsJson := by
    intro value given
    obtain ⟨s, here, given⟩ := Option.bind_eq_some_iff.mp given
    exact (json s here).default value given
  have samples : ∀ value ∈ (source.schema.bind Schema.sample).or source.sample,
      value.IsJson := by
    intro value given
    rcases Option.or_eq_some_iff.mp given with given | ⟨-, given⟩
    · obtain ⟨s, here, given⟩ := Option.bind_eq_some_iff.mp given
      exact (json s here).sample value given
    · exact sample value given
  refine ((FailsWhen.of_ok (optional_display_ok defaults)).bind fun _ _ =>
    (FailsWhen.of_ok (optional_display_ok samples)).bind fun _ _ =>
      (inputChoices_failsWhen json source.location).map).congr ?_
  simp

/-- A parameter whose schema is a reference, or whose values to choose from are one. -/
def SchemaRefers (parameter : Parameter) : Prop :=
  (∃ r, parameter.schema.toOption = some (.reference r)) ∨
    ∃ schema, parameter.schema.toOption = some (.inline schema) ∧ schema.ChoicesRefer

theorem buildParameterInput_failsWhen {parameter : Parameter}
    (json : ∀ schema, parameter.schema.toOption = some (.inline schema) → schema.HoldsJson)
    (sample : ∀ value ∈ parameter.sample, value.IsJson) (seen : List String) (location : String) :
    FailsWhen (SchemaRefers parameter) (buildParameterInput parameter seen location) := by
  refine (optional_resolved_failsWhen _ _).bind fun schema found => ?_
  have given := optional_resolved_eq_ok found
  have known : ∀ s ∈ schema, s.HoldsJson := by
    rintro s rfl
    exact json s given
  refine (buildInput_failsWhen known sample seen).congr ?_
  simp [given]

theorem buildEach_failsWhen {α : Type} {build : α → List String → Except Problem (Input × List String)}
    {met : α → Prop} {sources : List α}
    (each : ∀ source ∈ sources, ∀ seen, FailsWhen (met source) (build source seen))
    (seen : List String) :
    FailsWhen (∃ source ∈ sources, met source) (buildEach build sources seen) := by
  induction sources generalizing seen with
  | nil => exact (FailsWhen.ok _).congr (by simp)
  | cons source sources ih =>
      obtain ⟨first, others⟩ := List.forall_mem_cons.mp each
      refine ((first seen).bind fun made _ => (ih others made.2).map).congr ?_
      simp

/-! Parameters. -/

theorem resolveFrom_failsWhen (location : String) (index : Nat) (nodes : List (Node Parameter)) :
    FailsWhen (∃ r, .reference r ∈ nodes) (resolveFrom location index nodes) := by
  induction nodes generalizing index with
  | nil => exact (FailsWhen.ok _).congr (by simp)
  | cons node nodes ih =>
      refine ((resolved_failsWhen node _).bind fun _ _ => (ih (index + 1)).map).congr ?_
      simp [exists_or, eq_comm]

theorem resolveFrom_eq_ok {location : String} {index : Nat} {nodes : List (Node Parameter)}
    {parameters : List Parameter} (ok : resolveFrom location index nodes = .ok parameters) :
    parameters = Node.inPlace nodes := by
  induction nodes generalizing index parameters with
  | nil =>
      cases ok
      rfl
  | cons node nodes ih =>
      obtain ⟨first, here, ok⟩ := bind_eq_ok.mp ok
      obtain ⟨others, later, same⟩ := bind_eq_ok.mp ok
      cases same
      rw [resolved_eq_ok.mp here, ih later]
      rfl

theorem mergeParameters_failsWhen (shared own : List (Node Parameter)) (location : String) :
    FailsWhen (∃ r, .reference r ∈ shared ++ own) (mergeParameters shared own location) :=
  (resolveFrom_failsWhen location 0 (shared ++ own)).map

/-- The parameters that count are the last ones under their names. -/
theorem mem_mergeParameters {shared own : List (Node Parameter)} {location : String}
    {merged : List Parameter} (ok : mergeParameters shared own location = .ok merged)
    {parameter : Parameter} :
    parameter ∈ merged ↔ IsLast Parameter.name parameter (Node.inPlace (shared ++ own)) := by
  obtain ⟨parameters, found, same⟩ := bind_eq_ok.mp ok
  cases same
  rw [resolveFrom_eq_ok found]
  have injective : Function.Injective fun p : Parameter => (p.name, p) :=
    fun _ _ same => (Prod.mk.inj same).2
  rw [← isLast_map injective Prod.fst, ← Named.mem_ofList_iff]
  constructor
  · intro member
    obtain ⟨pair, inside, rfl⟩ := List.mem_map.mp member
    obtain ⟨p, -, rfl⟩ := List.mem_map.mp (Named.mem_ofList inside)
    exact inside
  · exact fun inside => List.mem_map.mpr ⟨_, inside, rfl⟩

/-! Bodies. -/

theorem resolveMembers_failsWhen (location : String) (index : Nat) (nodes : List (Node Schema)) :
    FailsWhen (∃ r, .reference r ∈ nodes) (resolveMembers location index nodes) := by
  induction nodes generalizing index with
  | nil => exact (FailsWhen.ok _).congr (by simp)
  | cons node nodes ih =>
      refine ((resolved_failsWhen node _).bind fun _ _ => (ih (index + 1)).map).congr ?_
      simp [exists_or, eq_comm]

theorem resolveMembers_eq_ok {location : String} {index : Nat} {nodes : List (Node Schema)}
    {members : List Schema} (ok : resolveMembers location index nodes = .ok members) :
    nodes = members.map .inline := by
  induction nodes generalizing index members with
  | nil =>
      cases ok
      rfl
  | cons node nodes ih =>
      obtain ⟨first, here, ok⟩ := bind_eq_ok.mp ok
      obtain ⟨others, later, same⟩ := bind_eq_ok.mp ok
      cases same
      rw [resolved_eq_ok.mp here, ih later]
      rfl

theorem mapM_resolved_eq_ok {location : String} {named : List (String × Node Schema)}
    {properties : List (String × Schema)}
    (ok : named.mapM (fun property => do
      return (property.1, ← resolved property.2 (propertyLocation location property.1))) =
        .ok properties) :
    named = properties.map fun property => (property.1, .inline property.2) := by
  induction named generalizing properties with
  | nil =>
      cases ok
      rfl
  | cons first named ih =>
      rw [List.mapM_cons] at ok
      obtain ⟨_, here, ok⟩ := bind_eq_ok.mp ok
      obtain ⟨value, found, same⟩ := bind_eq_ok.mp here
      cases same
      obtain ⟨others, later, same⟩ := bind_eq_ok.mp ok
      cases same
      rw [List.map_cons, ← ih later, ← resolved_eq_ok.mp found]

theorem flattenProperties_failsWhen (schema : Schema) (location : String) :
    FailsWhen ((∃ r, .reference r ∈ schema.allOf) ∨
        ∃ name r, IsLast Prod.fst (name, .reference r) schema.definitions)
      (flattenProperties schema location) := by
  refine (resolveMembers_failsWhen location 0 _).bind fun members found => ?_
  have parts : schema :: members = schema.parts := by
    rw [Schema.parts, resolveMembers_eq_ok found, Node.inPlace_inline]
  dsimp only
  rw [parts]
  have each (property : String × Node Schema) :
      FailsWhen (∃ r, property.2 = .reference r)
        (resolved property.2 (propertyLocation location property.1) >>= fun value =>
          .ok (property.1, value)) :=
    (resolved_failsWhen _ _).map
  refine (FailsWhen.mapM fun property _ => each property).map.congr ?_
  simp only [Prod.exists, Named.mem_ofList_iff]
  constructor
  · rintro ⟨name, _, last, r, rfl⟩
    exact ⟨name, r, last⟩
  · rintro ⟨name, r, last⟩
    exact ⟨name, _, last, r, rfl⟩

theorem flattenProperties_eq_ok {schema : Schema} {location : String}
    {properties : List (String × Schema)} {required : List String}
    (ok : flattenProperties schema location = .ok (properties, required)) :
    Named.ofList schema.definitions =
        properties.map (fun property => (property.1, .inline property.2)) ∧
      required = schema.parts.flatMap Schema.required := by
  obtain ⟨members, found, ok⟩ := bind_eq_ok.mp ok
  have parts : schema :: members = schema.parts := by
    rw [Schema.parts, resolveMembers_eq_ok found, Node.inPlace_inline]
  dsimp only at ok
  rw [parts] at ok
  obtain ⟨_, each, same⟩ := bind_eq_ok.mp ok
  cases same
  exact ⟨mapM_resolved_eq_ok each, rfl⟩

def PropertiesHoldJson (schema : Schema) : Prop :=
  ∀ definition ∈ schema.definitions, ∀ property, definition.2 = .inline property →
    property.HoldsJson

/-- A property that an input is made from, with a reference where its values to choose from are. -/
def PropertyRefers (schema : Schema) : Prop :=
  ∃ name property, IsLast Prod.fst (name, .inline property) schema.definitions ∧
    property.isReadOnly = false ∧ property.ChoicesRefer

theorem buildBodyInputs_failsWhen {schema : Schema} (json : PropertiesHoldJson schema)
    (seen : List String) (location : String) :
    FailsWhen (((∃ r, .reference r ∈ schema.allOf) ∨
          ∃ name r, IsLast Prod.fst (name, .reference r) schema.definitions) ∨
        PropertyRefers schema)
      (buildBodyInputs schema seen location) := by
  refine (flattenProperties_failsWhen schema location).bind fun flat found => ?_
  obtain ⟨properties, required⟩ := flat
  obtain ⟨named, -⟩ := flattenProperties_eq_ok found
  have last {name : String} {property : Schema} :
      (name, property) ∈ properties ↔ IsLast Prod.fst (name, .inline property) schema.definitions := by
    rw [← Named.mem_ofList_iff, named, List.mem_map]
    constructor
    · exact fun member => ⟨_, member, rfl⟩
    · rintro ⟨_, member, ⟨⟩⟩
      exact member
  have same : (∃ property ∈ properties.filter (fun property => !property.2.isReadOnly),
      property.2.ChoicesRefer) ↔ PropertyRefers schema := by
    simp only [Prod.exists, List.mem_filter, last, PropertyRefers]
    simp [and_assoc]
  refine (buildEach_failsWhen (fun property member seen => ?_) seen).congr same
  obtain ⟨name, property⟩ := property
  have defined := (last.mp (List.mem_of_mem_filter member)).mem
  have known : ∀ s ∈ some property, s.HoldsJson := by
    rintro _ ⟨⟩
    exact json _ defined _ rfl
  exact (buildInput_failsWhen known (by rintro _ ⟨⟩) seen).congr (by simp)

/-- The node that stands for the schema of an operation's JSON body. -/
def IsJsonBody (operation : Operation) (node : Node Schema) : Prop :=
  ∃ body, operation.requestBody.toOption = some (.inline body) ∧
    ((body.content.getD []).lookup jsonContentType).bind (fun type => type.schema.toOption) =
      some node

theorem bodySchema_failsWhen (operation : Operation) (location : String) :
    FailsWhen ((∃ r, operation.requestBody.toOption = some (.reference r)) ∨
        ∃ r, IsJsonBody operation (.reference r))
      (bodySchema operation location) := by
  unfold bodySchema
  cases given : operation.requestBody.toOption with
  | none => exact (FailsWhen.ok none).congr (by simp [IsJsonBody, given])
  | some node =>
      have same : ((∃ r, node = .reference r) ∨ ∃ r, IsJsonBody operation (.reference r)) ↔
          (∃ r, some node = some (.reference r)) ∨ ∃ r, IsJsonBody operation (.reference r) := by
        simp
      refine ((resolved_failsWhen node _).bind fun body found => ?_).congr same
      obtain rfl := resolved_eq_ok.mp found
      split
      · rename_i none
        exact (FailsWhen.ok _).congr (by simp [IsJsonBody, given, none])
      · rename_i schema some
        exact (resolved_failsWhen schema _).map.congr (by simp [IsJsonBody, given, some])

theorem bodySchema_eq_ok {operation : Operation} {location : String} {found : Option Schema}
    (ok : bodySchema operation location = .ok found) {schema : Schema} :
    found = some schema ↔ IsJsonBody operation (.inline schema) := by
  unfold bodySchema at ok
  split at ok
  · rename_i none
    cases ok
    simp [IsJsonBody, none]
  · rename_i node given
    obtain ⟨body, here, rest⟩ := bind_eq_ok.mp ok
    obtain rfl := resolved_eq_ok.mp here
    split at rest
    · rename_i none
      cases rest
      simp [IsJsonBody, given, none]
    · rename_i node some
      obtain ⟨value, here, same⟩ := bind_eq_ok.mp rest
      cases same
      simp [IsJsonBody, given, some, resolved_eq_ok.mp here]

/-! Operations. -/

/-- The nodes that stand for the parameters of an operation, the shared ones first. -/
def parameterNodes (operation : Operation) (shared : List (Node Parameter)) :
    List (Node Parameter) :=
  shared ++ operation.parameters.getD []

/-- The values in an operation that inputs may show are JSON. -/
structure HoldsJson (operation : Operation) (shared : List (Node Parameter)) : Prop where
  samples : ∀ parameter ∈ Node.inPlace (parameterNodes operation shared),
    ∀ value ∈ parameter.sample, value.IsJson
  schemas : ∀ parameter ∈ Node.inPlace (parameterNodes operation shared), ∀ schema,
    parameter.schema.toOption = some (.inline schema) → schema.HoldsJson
  properties : ∀ schema, IsJsonBody operation (.inline schema) → PropertiesHoldJson schema

/-- A parameter that an input is made from. -/
def IsAsked (operation : Operation) (shared : List (Node Parameter)) (parameter : Parameter) : Prop :=
  IsLast Parameter.name parameter (Node.inPlace (parameterNodes operation shared)) ∧
    (parameter.place = "path" ∨ parameter.place = "query")

/-- A reference where the inputs of an operation are looked for. -/
inductive MeetsReference (operation : Operation) (shared : List (Node Parameter)) : Prop
  | parameter (r : Reference) : .reference r ∈ parameterNodes operation shared →
      MeetsReference operation shared
  | parameterSchema (parameter : Parameter) (r : Reference) : IsAsked operation shared parameter →
      parameter.schema.toOption = some (.reference r) → MeetsReference operation shared
  | parameterChoices (parameter : Parameter) (schema : Schema) :
      IsAsked operation shared parameter → parameter.schema.toOption = some (.inline schema) →
      schema.ChoicesRefer → MeetsReference operation shared
  | body (r : Reference) : operation.requestBody.toOption = some (.reference r) →
      MeetsReference operation shared
  | bodySchema (r : Reference) : IsJsonBody operation (.reference r) →
      MeetsReference operation shared
  | part (schema : Schema) (r : Reference) : IsJsonBody operation (.inline schema) →
      .reference r ∈ schema.allOf → MeetsReference operation shared
  | property (schema : Schema) (name : String) (r : Reference) :
      IsJsonBody operation (.inline schema) →
      IsLast Prod.fst (name, .reference r) schema.definitions → MeetsReference operation shared
  | propertyChoices (schema : Schema) (name : String) (property : Schema) :
      IsJsonBody operation (.inline schema) →
      IsLast Prod.fst (name, .inline property) schema.definitions →
      property.isReadOnly = false → property.ChoicesRefer → MeetsReference operation shared

section Operation

variable {operation : Operation} {shared : List (Node Parameter)}

/-- A parameter of a place that an input is made from, with a reference in its schema. -/
def ParameterRefers (operation : Operation) (shared : List (Node Parameter)) (place : String) :
    Prop :=
  ∃ parameter, (IsLast Parameter.name parameter (Node.inPlace (parameterNodes operation shared)) ∧
    parameter.place = place) ∧ SchemaRefers parameter

/-- A body whose properties are defined by a reference, or refer to their values. -/
def BodyRefers (operation : Operation) : Prop :=
  ∃ schema, IsJsonBody operation (.inline schema) ∧
    (((∃ r, .reference r ∈ schema.allOf) ∨
      ∃ name r, IsLast Prod.fst (name, .reference r) schema.definitions) ∨ PropertyRefers schema)

theorem meetsReference_iff : MeetsReference operation shared ↔
    (∃ r, .reference r ∈ parameterNodes operation shared) ∨
      ParameterRefers operation shared "path" ∨ ParameterRefers operation shared "query" ∨
      ((∃ r, operation.requestBody.toOption = some (.reference r)) ∨
        ∃ r, IsJsonBody operation (.reference r)) ∨ BodyRefers operation := by
  constructor
  · intro met
    cases met with
    | parameter r given => exact .inl ⟨r, given⟩
    | parameterSchema p r asked refers =>
        obtain ⟨last, place | place⟩ := asked
        · exact .inr (.inl ⟨p, ⟨last, place⟩, .inl ⟨r, refers⟩⟩)
        · exact .inr (.inr (.inl ⟨p, ⟨last, place⟩, .inl ⟨r, refers⟩⟩))
    | parameterChoices p schema asked given refers =>
        obtain ⟨last, place | place⟩ := asked
        · exact .inr (.inl ⟨p, ⟨last, place⟩, .inr ⟨schema, given, refers⟩⟩)
        · exact .inr (.inr (.inl ⟨p, ⟨last, place⟩, .inr ⟨schema, given, refers⟩⟩))
    | body r given => exact .inr (.inr (.inr (.inl (.inl ⟨r, given⟩))))
    | bodySchema r given => exact .inr (.inr (.inr (.inl (.inr ⟨r, given⟩))))
    | part schema r given member =>
        exact .inr (.inr (.inr (.inr ⟨schema, given, .inl (.inl ⟨r, member⟩)⟩)))
    | property schema name r given last =>
        exact .inr (.inr (.inr (.inr ⟨schema, given, .inl (.inr ⟨name, r, last⟩)⟩)))
    | propertyChoices schema name property given last writable refers =>
        exact .inr (.inr (.inr (.inr ⟨schema, given, .inr ⟨name, property, last, writable, refers⟩⟩)))
  · have asked {place : String} (known : place = "path" ∨ place = "query")
        (refers : ParameterRefers operation shared place) : MeetsReference operation shared := by
      obtain ⟨p, ⟨last, rfl⟩, ⟨r, refers⟩ | ⟨schema, given, refers⟩⟩ := refers
      · exact .parameterSchema p r ⟨last, known⟩ refers
      · exact .parameterChoices p schema ⟨last, known⟩ given refers
    rintro (⟨r, given⟩ | refers | refers | (⟨r, given⟩ | ⟨r, given⟩) | ⟨schema, given, refers⟩)
    · exact .parameter r given
    · exact asked (.inl rfl) refers
    · exact asked (.inr rfl) refers
    · exact .body r given
    · exact .bodySchema r given
    · rcases refers with (⟨r, member⟩ | ⟨name, r, last⟩) | ⟨name, property, last, writable, refers⟩
      · exact .part schema r given member
      · exact .property schema name r given last
      · exact .propertyChoices schema name property given last writable refers

variable (json : HoldsJson operation shared)
include json

theorem deriveInputs_failsWhen {location : String} {merged : List Parameter}
    (found : mergeParameters shared (operation.parameters.getD []) location = .ok merged)
    (place : String) (seen : List String) :
    FailsWhen (ParameterRefers operation shared place)
      (deriveInputs (merged.filter (·.place = place)) seen location) := by
  have same : (∃ parameter ∈ merged.filter (·.place = place), SchemaRefers parameter) ↔
      ParameterRefers operation shared place := by
    simp only [List.mem_filter, mem_mergeParameters found, decide_eq_true_eq]
    rfl
  refine (buildEach_failsWhen (fun parameter member seen => ?_) seen).congr same
  have last := (mem_mergeParameters found).mp (List.mem_of_mem_filter member)
  exact buildParameterInput_failsWhen (json.schemas parameter last.mem)
    (json.samples parameter last.mem) seen location

theorem operationInputs_failsWhen (location : String) :
    FailsWhen (MeetsReference operation shared) (operationInputs operation shared location) := by
  refine FailsWhen.congr meetsReference_iff.symm ?_
  refine (mergeParameters_failsWhen _ _ location).bind fun merged found => ?_
  refine (deriveInputs_failsWhen json found "path" _).bind fun path _ => ?_
  refine (deriveInputs_failsWhen json found "query" _).bind fun query _ => ?_
  refine (bodySchema_failsWhen operation location).bind fun body known => ?_
  have isBody {schema : Schema} : body = some schema ↔ IsJsonBody operation (.inline schema) :=
    bodySchema_eq_ok known
  cases body with
  | none => exact (FailsWhen.ok _).congr (by simp [BodyRefers, ← isBody])
  | some schema =>
      have holds := json.properties schema (isBody.mp rfl)
      refine (buildBodyInputs_failsWhen holds _ location).map.congr ?_
      simp [BodyRefers, ← isBody]

/--
With JSON values, the inputs of an operation fail at a reference exactly if one is met where they are
looked for, and if none is met, there are inputs.
-/
theorem operationInputs_unresolved_iff (location : String) :
    ((∃ target place, operationInputs operation shared location =
        .error (.declared (.unresolved target place))) ↔ MeetsReference operation shared) ∧
      (¬MeetsReference operation shared →
        ∃ inputs, operationInputs operation shared location = .ok inputs) :=
  have known := operationInputs_failsWhen json location
  ⟨known.unresolved_iff, known.succeeds⟩

end Operation

def lostReference {α : Type} : Node α :=
  .reference ⟨"#/components/lost", []⟩

def plainParameter (name place : String) (schema : Node Schema) : Parameter :=
  { name, place, description := .absent, required := .absent, schema := .given schema, extras := [] }

def composedSchema (readOnly : Bool) (allOf : List (Node Schema))
    (properties : List (String × Node Schema)) : Schema :=
  .mk .absent .absent .absent .absent (.given (.text "none")) .absent .absent (.given readOnly)
    (.given allOf) (.given properties) .absent []

/-- A body whose property is first a reference and then read only, with a reference inside. -/
def sparingBody : Schema :=
  composedSchema false
    [.inline (composedSchema false []
      [("id", .inline (composedSchema true [lostReference] []))])]
    [("id", lostReference)]

/-- References in a header, in what a later definition replaces, and in what is only read. -/
def sparingOperation : Operation :=
  { operationId := .absent
    summary := .absent
    description := .absent
    tags := .absent
    parameters := some [.inline (plainParameter "page" "query" (.inline (composedSchema false [] []))),
      .inline (plainParameter "trace" "header" lostReference)]
    requestBody := .given (.inline
      { description := .absent
        required := .absent
        content := some [("application/json", ⟨.given (.inline sparingBody), []⟩)]
        extras := [] })
    extras := [] }

def sparingShared : List (Node Parameter) :=
  [.inline (plainParameter "page" "query" lostReference)]

theorem holdsJson_composedSchema {readOnly : Bool} {allOf : List (Node Schema)}
    {properties : List (String × Node Schema)}
    (plain : ∀ part ∈ Node.inPlace allOf, part.choices = []) :
    (composedSchema readOnly allOf properties).HoldsJson := by
  refine ⟨?_, nofun, fun part member value chosen => ?_⟩
  · rintro _ ⟨⟩
    exact .scalar trivial
  · rcases List.mem_cons.mp member with rfl | composed
    · cases chosen
    · rw [plain part composed] at chosen
      cases chosen

theorem sparing_holdsJson : HoldsJson sparingOperation sparingShared := by
  have composed : (composedSchema false [] []).HoldsJson := holdsJson_composedSchema nofun
  refine ⟨?_, ?_, ?_⟩
  · exact List.forall_mem_cons.mpr ⟨nofun, List.forall_mem_cons.mpr
      ⟨nofun, List.forall_mem_singleton.mpr nofun⟩⟩
  · refine List.forall_mem_cons.mpr ⟨nofun, List.forall_mem_cons.mpr
      ⟨?_, List.forall_mem_singleton.mpr nofun⟩⟩
    rintro _ ⟨⟩
    exact composed
  · rintro schema ⟨body, ⟨⟩, ⟨⟩⟩
    refine List.forall_mem_cons.mpr ⟨nofun, List.forall_mem_singleton.mpr ?_⟩
    rintro _ ⟨⟩
    exact holdsJson_composedSchema nofun

theorem operationInputs_unresolved_iff_sparing :
    HoldsJson sparingOperation sparingShared ∧ ¬MeetsReference sparingOperation sparingShared ∧
      ∃ inputs, operationInputs sparingOperation sparingShared "test" = .ok inputs := by
  have computed : (operationInputs sparingOperation sparingShared "test").isOk = true := by
    decide +kernel
  have known := operationInputs_unresolved_iff sparing_holdsJson "test"
  have unmet : ¬MeetsReference sparingOperation sparingShared := by
    intro met
    obtain ⟨target, place, failed⟩ := known.1.mpr met
    rw [failed] at computed
    cases computed
  exact ⟨sparing_holdsJson, unmet, known.2 unmet⟩

end Derivation

end ApiCompiler
