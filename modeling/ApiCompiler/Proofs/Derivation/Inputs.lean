import ApiCompiler.Derivation.Inputs
import ApiCompiler.Proofs.Naming.Identifier
import ApiCompiler.Proofs.World.Failing

/-!
The inputs of an operation: one for each parameter and property it is derived from, and all with
different keys.
-/

namespace ApiCompiler.Derivation

open Openapi Component

/--
The inputs have keys of their own, none of which was in use before and all of which are after, each
given for the name of its input.
-/
structure Keyed (seen : List String) (inputs : List Input) (seen' : List String) : Prop extends
    Naming.Given seen (inputs.map Input.key) seen' where
  inTurn : inputs.map Input.key = Naming.identifiersInTurn seen (inputs.map Input.wireName)

theorem Keyed.append {seen seen' seen'' : List String} {first second : List Input}
    (before : Keyed seen first seen') (after : Keyed seen' second seen'') :
    Keyed seen (first ++ second) seen'' := by
  have given := before.toGiven.append after.toGiven
  rw [← List.map_append] at given
  refine ⟨given, ?_⟩
  rw [List.map_append, List.map_append, Naming.identifiersInTurn_append, ← before.inTurn,
    ← before.used, ← after.inTurn]

theorem buildInput_ok {source : InputSource} {seen seen' : List String} {input : Input}
    (built : buildInput source seen = .ok (input, seen')) :
    input.wireName = source.wireName ∧
      (input.key, seen') = Naming.uniqueIdentifier source.wireName seen := by
  simp only [buildInput, bind_eq_ok] at built
  obtain ⟨default, -, sample, -, choices, -, same⟩ := built
  cases same
  exact ⟨rfl, rfl⟩

theorem buildParameterInput_ok {parameter : Parameter} {seen seen' : List String}
    {location : String} {input : Input}
    (built : buildParameterInput parameter seen location = .ok (input, seen')) :
    input.wireName = parameter.name ∧
      (input.key, seen') = Naming.uniqueIdentifier parameter.name seen := by
  simp only [buildParameterInput, bind_eq_ok] at built
  obtain ⟨schema, -, built⟩ := built
  exact buildInput_ok built

section Each

variable {α : Type} {build : α → List String → Except Problem (Input × List String)}
  {nameOf : α → String}

theorem buildEach_ok
    (each : ∀ source seen input seen', build source seen = .ok (input, seen') →
      input.wireName = nameOf source ∧
        (input.key, seen') = Naming.uniqueIdentifier (nameOf source) seen)
    {sources : List α} {seen seen' : List String} {inputs : List Input}
    (built : buildEach build sources seen = .ok (inputs, seen')) :
    inputs.map Input.wireName = sources.map nameOf ∧ Keyed seen inputs seen' := by
  induction sources generalizing seen inputs with
  | nil =>
      cases built
      exact ⟨rfl, Naming.Given.nil _, rfl⟩
  | cons source sources ih =>
      simp only [buildEach, bind_eq_ok] at built
      obtain ⟨⟨input, seen₁⟩, first, ⟨rest, seen₂⟩, later, same⟩ := built
      cases same
      obtain ⟨name, key⟩ := each _ _ _ _ first
      obtain ⟨names, keyed⟩ := ih later
      have given := Naming.Given.uniqueIdentifier (nameOf source) seen
      have inTurn : [input].map Input.key =
          Naming.identifiersInTurn seen ([input].map Input.wireName) := by
        rw [List.map_singleton, List.map_singleton, name, Naming.identifiersInTurn, ← key]
        rfl
      rw [← key] at given
      refine ⟨?_, Keyed.append ⟨given, inTurn⟩ keyed⟩
      rw [List.map_cons, List.map_cons, name, names]

end Each

theorem nodup_mergeParameters {shared own : List (Node Parameter)} {location : String}
    {merged : List Parameter} (ok : mergeParameters shared own location = .ok merged) :
    (merged.map Parameter.name).Nodup := by
  simp only [mergeParameters, bind_eq_ok] at ok
  obtain ⟨parameters, -, same⟩ := ok
  cases same
  let named := Named.ofList (parameters.map fun p => (p.name, p))
  have names : (named.map Prod.snd).map Parameter.name = named.map Prod.fst := by
    rw [List.map_map]
    refine List.map_congr_left fun pair member => ?_
    obtain ⟨parameter, -, rfl⟩ := List.mem_map.mp (Named.mem_ofList member)
    rfl
  rw [names]
  exact Named.nodup_ofList _

theorem deriveInputs_ok {parameters : List Parameter} {seen seen' : List String}
    {location : String} {inputs : List Input}
    (built : deriveInputs parameters seen location = .ok (inputs, seen')) :
    inputs.map Input.wireName = parameters.map Parameter.name ∧ Keyed seen inputs seen' :=
  buildEach_ok (fun _ _ _ _ one => buildParameterInput_ok one) built

theorem buildBodyInputs_ok {schema : Schema} {seen seen' : List String} {location : String}
    {inputs : List Input} (built : buildBodyInputs schema seen location = .ok (inputs, seen')) :
    ∃ properties required, flattenProperties schema location = .ok (properties, required) ∧
      inputs.map Input.wireName =
        (properties.filter fun property => !property.2.isReadOnly).map Prod.fst ∧
      Keyed seen inputs seen' := by
  simp only [buildBodyInputs, bind_eq_ok] at built
  obtain ⟨⟨properties, required⟩, flat, built⟩ := built
  exact ⟨properties, required, flat, buildEach_ok (fun _ _ _ _ one => buildInput_ok one) built⟩

theorem operationInputs_ok {operation : Operation} {shared : List (Node Parameter)}
    {location : String} {inputs : OperationInputs}
    (ok : operationInputs operation shared location = .ok inputs) :
    ∃ merged, mergeParameters shared (operation.parameters.getD []) location = .ok merged ∧
      inputs.path.map Input.wireName =
        (merged.filter (·.place = "path")).map Parameter.name ∧
      inputs.query.map Input.wireName =
        (merged.filter (·.place = "query")).map Parameter.name ∧
      ∃ seen, Keyed reservedInputKeys inputs.all seen := by
  simp only [operationInputs, bind_eq_ok] at ok
  obtain ⟨merged, combined, ⟨path, seen₁⟩, first, ⟨query, seen₂⟩, second, body, -, ok⟩ := ok
  obtain ⟨pathNames, pathKeys⟩ := deriveInputs_ok first
  obtain ⟨queryNames, queryKeys⟩ := deriveInputs_ok second
  cases body with
  | none =>
      cases ok
      refine ⟨merged, combined, pathNames, queryNames, seen₂, ?_⟩
      simpa [OperationInputs.all] using pathKeys.append queryKeys
  | some schema =>
      simp only [bind_eq_ok] at ok
      obtain ⟨⟨body, seen₃⟩, third, same⟩ := ok
      cases same
      obtain ⟨-, -, -, -, bodyKeys⟩ := buildBodyInputs_ok third
      exact ⟨merged, combined, pathNames, queryNames, seen₃,
        (pathKeys.append queryKeys).append bodyKeys⟩

theorem mapM_map_fst {β γ : Type} {f : String × β → Except Problem γ} {pairs : List (String × β)}
    {made : List (String × γ)}
    (ok : pairs.mapM (fun pair => do return (pair.1, ← f pair)) = .ok made) :
    made.map Prod.fst = pairs.map Prod.fst := by
  induction pairs generalizing made with
  | nil =>
      cases ok
      rfl
  | cons first pairs ih =>
      simp only [List.mapM_cons, bind_eq_ok] at ok
      obtain ⟨_, ⟨c, -, ⟨⟩⟩, rest, later, ⟨⟩⟩ := ok
      rw [List.map_cons, List.map_cons, ih later]

theorem nodup_flattenProperties {schema : Schema} {location : String}
    {properties : List (String × Schema)} {required : List String}
    (flat : flattenProperties schema location = .ok (properties, required)) :
    (properties.map Prod.fst).Nodup := by
  simp only [flattenProperties, bind_eq_ok] at flat
  obtain ⟨members, -, resolvedProperties, each, ⟨⟩⟩ := flat
  rw [mapM_map_fst each]
  exact Named.nodup_ofList _

/-- The properties of the JSON body of an operation, none if it has no such body. -/
def bodyProperties (operation : Operation) (location : String) :
    Except Problem (List (String × Schema)) := do
  match ← bodySchema operation location with
  | none => return []
  | some schema => return (← flattenProperties schema location).1

theorem operationInputs_body {operation : Operation} {shared : List (Node Parameter)}
    {location : String} {inputs : OperationInputs}
    (ok : operationInputs operation shared location = .ok inputs) :
    ∃ properties, bodyProperties operation location = .ok properties ∧
      (properties.map Prod.fst).Nodup ∧
      inputs.body.map Input.wireName =
        (properties.filter fun property => !property.2.isReadOnly).map Prod.fst := by
  simp only [operationInputs, bind_eq_ok] at ok
  obtain ⟨_, -, ⟨path, _⟩, -, ⟨query, _⟩, -, body, found, ok⟩ := ok
  rw [bodyProperties, found]
  cases body with
  | none =>
      cases ok
      exact ⟨[], rfl, List.nodup_nil, rfl⟩
  | some schema =>
      simp only [bind_eq_ok] at ok
      obtain ⟨⟨body, _⟩, built, ⟨⟩⟩ := ok
      obtain ⟨properties, required, flat, names, -⟩ := buildBodyInputs_ok built
      refine ⟨properties, ?_, nodup_flattenProperties flat, names⟩
      rw [bind_eq_ok]
      exact ⟨_, rfl, bind_eq_ok.mpr ⟨_, flat, rfl⟩⟩

end ApiCompiler.Derivation
