import ApiCompiler.Derivation.Actions
import ApiCompiler.Proofs.Derivation.Inputs

/-!
What an action takes over from the inputs of its operation.
-/

namespace ApiCompiler.Derivation

open Openapi Component

theorem loggedInputs_ok {operation : Operation} {shared : List (Node Parameter)}
    {location : String} {inputs : OperationInputs} {log log' : Log}
    (ran : (loggedInputs operation shared location).run log = (.ok inputs, log')) :
    operationInputs operation shared location = .ok inputs := by
  simp only [loggedInputs, Logged.run_bind_eq_ok, Logged.run_ofExcept] at ran
  obtain ⟨found, middle, derived, _, _, _, same⟩ := ran
  cases same
  exact (Prod.mk.inj derived).1

theorem buildAction_ok {path verb : String} {operation : Operation}
    {shared : List (Node Parameter)} {seen seen' : List String} {action : Action} {log log' : Log}
    (built : (buildAction path verb operation shared seen).run log = (.ok (action, seen'), log')) :
    ∃ key groupTag inputs,
      operationInputs operation shared (operationLabel path verb) = .ok inputs ∧
        action = actionOf path verb operation key groupTag inputs := by
  simp only [buildAction, Logged.run_bind_eq_ok] at built
  obtain ⟨⟨key, _⟩, _, _, inputs, _, derived, groupTag, _, _, _, _, _, same⟩ := built
  cases same
  exact ⟨key, groupTag, inputs, loggedInputs_ok derived, rfl⟩

/-! Path inputs by name. -/

theorem pathKey_wireName {inputs : List Input} (distinct : (inputs.map Input.wireName).Nodup)
    {input : Input} (member : input ∈ inputs) : pathKey inputs input.wireName = input.key := by
  induction inputs with
  | nil => cases member
  | cons first inputs ih =>
      obtain ⟨apart, distinct⟩ := List.nodup_cons.mp distinct
      rcases List.mem_cons.mp member with rfl | later
      · simp [pathKey]
      · have other : first.wireName ≠ input.wireName := by
          intro same
          exact apart (same ▸ List.mem_map_of_mem later)
        have found := ih distinct later
        simpa [pathKey, List.find?_cons, other] using found

/-! Inputs by key. -/

/-- A key that clashes with no name that a generated function binds besides its inputs. -/
structure IsInputKey (key : String) : Prop where
  identifier : Naming.isIdentifier key.toList = true
  unbound : key ∉ reservedInputKeys
  unreserved : key ∉ Naming.replacements.map Prod.fst

/-- The keys of the inputs that an operation is derived into. -/
structure InputKeys (inputs : OperationInputs) : Prop where
  distinct : (inputs.all.map Input.key).Nodup
  usable : ∀ input ∈ inputs.all, IsInputKey input.key

theorem Keyed.inputKeys {inputs : OperationInputs} {seen : List String}
    (keyed : Keyed reservedInputKeys inputs.all seen) : InputKeys inputs := by
  refine ⟨keyed.distinct, fun input inside => ?_⟩
  have member := List.mem_map_of_mem (f := Input.key) inside
  exact ⟨keyed.identifiers _ member, keyed.unused _ member, keyed.not_mem_replacements _ member⟩

theorem inputs_actionOf {path verb key groupTag : String} {operation : Operation}
    {inputs : OperationInputs} (keys : InputKeys inputs) :
    (actionOf path verb operation key groupTag inputs).inputs =
      (connectionInput.key, connectionInput) ::
        inputs.all.map fun input => (input.key, input) := by
  refine Named.ofList_of_nodup ?_
  rw [List.map_cons, List.map_map]
  refine List.nodup_cons.mpr ⟨fun taken => ?_, keys.distinct⟩
  obtain ⟨input, inside, same⟩ := List.mem_map.mp taken
  have unbound := (keys.usable input inside).unbound
  rw [show input.key = connectionInput.key from same] at unbound
  exact unbound (by simp [connectionInput, reservedInputKeys])

theorem binding_requestPlan {path verb : String} {inputs : OperationInputs}
    {bindings : List Binding}
    (present : (requestPlan path verb inputs).body = some bindings ∨
      (requestPlan path verb inputs).query = some bindings) :
    ∀ b ∈ bindings, ∃ input ∈ inputs.all, b = Binding.ofInput input := by
  intro b member
  simp only [requestPlan] at present
  rcases present with body | query
  · split at body
    · cases body
      obtain ⟨input, inside, rfl⟩ := List.mem_map.mp member
      exact ⟨input, by simp [OperationInputs.all, inside], rfl⟩
    · cases body
  · split at query
    · cases query
    · cases query
      obtain ⟨input, inside, rfl⟩ := List.mem_map.mp member
      exact ⟨input, by simp [OperationInputs.all, inside], rfl⟩

/--
An action has its connection and one input for each parameter in the path or the query and for each
property that may be written, all under keys of their own; its request has no other arguments and
sends nothing else.
-/
theorem buildAction_inputs {path verb : String} {operation : Operation}
    {shared : List (Node Parameter)} {seen seen' : List String} {action : Action} {log log' : Log}
    (built : (buildAction path verb operation shared seen).run log = (.ok (action, seen'), log')) :
    ∃ (inputs : OperationInputs) (merged : List Parameter) (properties : List (String × Schema)),
      InputKeys inputs ∧
      action.inputs =
        (connectionInput.key, connectionInput) ::
          inputs.all.map (fun input => (input.key, input)) ∧
      action.request.arguments = inputs.all.map Input.key ∧
      (∀ bindings, action.request.query = some bindings ∨ action.request.body = some bindings →
        ∀ binding ∈ bindings, binding.key ∈ action.request.arguments) ∧
      mergeParameters shared (operation.parameters.getD []) (operationLabel path verb) =
        .ok merged ∧
      (merged.map Parameter.name).Nodup ∧
      inputs.path.map Input.wireName = (merged.filter (·.place = "path")).map Parameter.name ∧
      inputs.query.map Input.wireName = (merged.filter (·.place = "query")).map Parameter.name ∧
      bodyProperties operation (operationLabel path verb) = .ok properties ∧
      (properties.map Prod.fst).Nodup ∧
      inputs.body.map Input.wireName =
        (properties.filter fun property => !property.2.isReadOnly).map Prod.fst := by
  obtain ⟨key, groupTag, inputs, derived, rfl⟩ := buildAction_ok built
  obtain ⟨merged, combined, pathNames, queryNames, _, keyed⟩ := operationInputs_ok derived
  obtain ⟨properties, found, distinct, bodyNames⟩ := operationInputs_body derived
  have keys := keyed.inputKeys
  have argument : ∀ bindings, (requestPlan path verb inputs).query = some bindings ∨
      (requestPlan path verb inputs).body = some bindings →
        ∀ binding ∈ bindings, binding.key ∈ inputs.all.map Input.key := by
    intro bindings sent binding member
    obtain ⟨input, inside, rfl⟩ := binding_requestPlan sent.symm binding member
    exact List.mem_map_of_mem inside
  exact ⟨inputs, merged, properties, keys, inputs_actionOf keys, rfl,
    argument, combined, nodup_mergeParameters combined, pathNames, queryNames, found, distinct,
    bodyNames⟩

def plainSchema (readOnly : Bool) (properties : List (String × Node Schema)) : Schema :=
  .mk .absent .absent .absent .absent .absent .absent .absent (.given readOnly) .absent
    (.given properties) .absent []

/-- An operation that expects four values under the name `id` or under reserved names. -/
def crowdedOperation : Operation :=
  { operationId := .absent
    summary := .absent
    description := .absent
    tags := .absent
    parameters := some
      [.inline ⟨"id", "path", .absent, .absent, .absent, []⟩,
        .inline ⟨"ID", "query", .absent, .absent, .absent, []⟩]
    requestBody := .given (.inline
      { description := .absent
        required := .absent
        content := some [(jsonContentType,
          { schema := .given (.inline (plainSchema false
              [("id", .inline (plainSchema false [])), ("connection", .inline (plainSchema false [])),
                ("created", .inline (plainSchema true []))]))
            extras := [] })]
        extras := [] })
    extras := [] }

theorem keys_crowdedOperation :
    Naming.identifiersInTurn reservedInputKeys ["id", "ID", "id", "connection"] =
      ["id", "otherId", "otherOtherId", "otherConnection"] := by
  let seen := reservedInputKeys
  have first : Naming.uniqueIdentifier "id" seen = ("id", seen ++ ["id"]) := by decide +kernel
  have second : Naming.uniqueIdentifier "ID" (seen ++ ["id"]) =
      ("otherId", seen ++ ["id", "otherId"]) := by decide +kernel
  have third : Naming.uniqueIdentifier "id" (seen ++ ["id", "otherId"]) =
      ("otherOtherId", seen ++ ["id", "otherId", "otherOtherId"]) := by decide +kernel
  have fourth : Naming.uniqueIdentifier "connection"
      (seen ++ ["id", "otherId", "otherOtherId"]) =
      ("otherConnection", seen ++ ["id", "otherId", "otherOtherId", "otherConnection"]) := by
    decide +kernel
  simp only [Naming.identifiersInTurn]
  rw [first, second, third, fourth]

/-- Each of the four values has an input of its own, and a property that is only read has none. -/
theorem buildAction_inputs_crowded :
    ∃ action seen log inputs,
      (buildAction "/things/{id}" "post" crowdedOperation [] []).run #[] =
          (.ok (action, seen), log) ∧
        InputKeys inputs ∧
        action.inputs =
          (connectionInput.key, connectionInput) ::
            inputs.all.map (fun input => (input.key, input)) ∧
        action.request.arguments = ["id", "otherId", "otherOtherId", "otherConnection"] ∧
        inputs.all.map Input.key = ["id", "otherId", "otherOtherId", "otherConnection"] ∧
        inputs.path.map Input.wireName = ["id"] ∧ inputs.query.map Input.wireName = ["ID"] ∧
        inputs.body.map Input.wireName = ["id", "connection"] := by
  let label := operationLabel "/things/{id}" "post"
  have succeeds : ((buildAction "/things/{id}" "post" crowdedOperation [] []).run #[]).1.isOk =
      true := by decide +kernel
  have parameters : (mergeParameters [] (crowdedOperation.parameters.getD []) label).toOption.map
      (fun merged => ((merged.filter (·.place = "path")).map Parameter.name,
        (merged.filter (·.place = "query")).map Parameter.name)) =
        some (["id"], ["ID"]) := by decide +kernel
  have written : (bodyProperties crowdedOperation label).toOption.map
      (fun properties => (properties.filter fun property => !property.2.isReadOnly).map Prod.fst) =
        some ["id", "connection"] := by decide +kernel
  rcases ran : (buildAction "/things/{id}" "post" crowdedOperation [] []).run #[] with
    ⟨result, log⟩
  rw [ran] at succeeds
  match result with
  | .error problem => cases succeeds
  | .ok (action, seen) =>
      obtain ⟨inputs, merged, properties, keys, whole, arguments, -, combined, -, path, query, found,
        -, body⟩ := buildAction_inputs ran
      rw [combined] at parameters
      rw [found] at written
      obtain ⟨pathNames, queryNames⟩ := Prod.mk.inj (Option.some.inj parameters)
      have pathNames := path.trans pathNames
      have queryNames := query.trans queryNames
      have bodyNames := body.trans (Option.some.inj written)
      obtain ⟨key, groupTag, derivedInputs, derived, rfl⟩ := buildAction_ok ran
      obtain ⟨_, -, -, -, _, keyed⟩ := operationInputs_ok derived
      have same : derivedInputs.all = inputs.all := by
        have entries := (inputs_actionOf keyed.inputKeys).symm.trans whole
        have second := congrArg (List.map Prod.snd) (List.cons.inj entries).2
        simpa only [List.map_map, Function.comp_def, List.map_id'] using second
      have given : inputs.all.map Input.key =
          ["id", "otherId", "otherOtherId", "otherConnection"] := by
        rw [← same, keyed.inTurn, same, OperationInputs.all, List.map_append, List.map_append,
          pathNames, queryNames, bodyNames]
        exact keys_crowdedOperation
      exact ⟨_, seen, log, inputs, rfl, keys, whole, arguments.trans given, given, pathNames,
        queryNames, bodyNames⟩

end ApiCompiler.Derivation
