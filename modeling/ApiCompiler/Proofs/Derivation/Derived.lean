import ApiCompiler.Proofs.Derivation.Actions
import ApiCompiler.Proofs.Derivation.BodyInputs

/-!
Where the inputs of an action come from: a parameter or a property, or the connection that every
action has.
-/

namespace ApiCompiler.Derivation

open Openapi Component

/-- An input of an action: its connection, or what is made from a parameter or a property. -/
inductive IsDerived : Input → Prop
  | connection : IsDerived connectionInput
  | source {source : InputSource} {seen seen' : List String} {input : Input} :
      buildInput source seen = .ok (input, seen') → IsDerived input

theorem isDerived_of_buildEach {α : Type}
    {build : α → List String → Except Problem (Input × List String)}
    (each : ∀ source seen input seen', build source seen = .ok (input, seen') → IsDerived input)
    {sources : List α} {seen seen' : List String} {inputs : List Input}
    (built : buildEach build sources seen = .ok (inputs, seen')) :
    ∀ input ∈ inputs, IsDerived input := by
  have made : List.Forall₂ (fun _ input => IsDerived input) sources inputs :=
    buildEach_forall₂ each built
  clear built
  induction made with
  | nil => exact nofun
  | cons first rest ih => exact List.forall_mem_cons.mpr ⟨first, ih⟩

theorem isDerived_of_deriveInputs {parameters : List Parameter} {seen seen' : List String}
    {location : String} {inputs : List Input}
    (built : deriveInputs parameters seen location = .ok (inputs, seen')) :
    ∀ input ∈ inputs, IsDerived input := by
  refine isDerived_of_buildEach (fun parameter seen input seen' one => ?_) built
  simp only [buildParameterInput, bind_eq_ok] at one
  obtain ⟨schema, -, one⟩ := one
  exact .source one

theorem isDerived_of_buildBodyInputs {schema : Schema} {seen seen' : List String}
    {location : String} {inputs : List Input}
    (built : buildBodyInputs schema seen location = .ok (inputs, seen')) :
    ∀ input ∈ inputs, IsDerived input := by
  simp only [buildBodyInputs, bind_eq_ok] at built
  obtain ⟨_, -, built⟩ := built
  exact isDerived_of_buildEach (fun _ _ _ _ one => .source one) built

theorem isDerived_of_operationInputs {operation : Operation} {shared : List (Node Parameter)}
    {location : String} {inputs : OperationInputs}
    (ok : operationInputs operation shared location = .ok inputs) :
    ∀ input ∈ inputs.all, IsDerived input := by
  simp only [operationInputs, bind_eq_ok] at ok
  obtain ⟨_, -, ⟨path, _⟩, first, ⟨query, _⟩, second, body, -, ok⟩ := ok
  have parameters := List.forall_mem_append.mpr
    ⟨isDerived_of_deriveInputs first, isDerived_of_deriveInputs second⟩
  cases body with
  | none =>
      cases ok
      simpa [OperationInputs.all] using parameters
  | some schema =>
      simp only [bind_eq_ok] at ok
      obtain ⟨⟨body, _⟩, third, ⟨⟩⟩ := ok
      exact List.forall_mem_append.mpr ⟨parameters, isDerived_of_buildBodyInputs third⟩

theorem isDerived_of_buildAction {path verb : String} {operation : Operation}
    {shared : List (Node Parameter)} {seen seen' : List String} {action : Action} {log log' : Log}
    (built : (buildAction path verb operation shared seen).run log = (.ok (action, seen'), log')) :
    ∀ pair ∈ action.inputs, IsDerived pair.2 := by
  obtain ⟨key, groupTag, inputs, derived, rfl⟩ := buildAction_ok built
  intro pair member
  have given : pair ∈ Named.ofList ((connectionInput.key, connectionInput) ::
      inputs.all.map fun input => (input.key, input)) := member
  rcases List.mem_cons.mp (Named.mem_ofList given) with rfl | one
  · exact .connection
  · obtain ⟨input, inside, rfl⟩ := List.mem_map.mp one
    exact isDerived_of_operationInputs derived input inside

end ApiCompiler.Derivation
