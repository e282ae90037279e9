import ApiCompiler.Modules.ActionGroup
import ApiCompiler.Proofs.Derivation.Actions
import ApiCompiler.Proofs.Derivation.PathTemplate

/-!
The calls in generated actions: what they send is what the operation asks for, whatever the values
of its inputs are.
-/

namespace ApiCompiler.Modules

open Component Script ApiCompiler.Derivation

/-! Reading a call back. -/

def objectOperand (bindings : List Binding) : Operand :=
  .object (bindings.map fun b => (b.wireName, .name b.key))

/-- The call of a plan whose address is a template with the pieces. -/
def callOf (plan : RequestPlan) (pieces : List Piece) : Call :=
  let query := plan.query.toList.map fun bindings => ("params", objectOperand bindings)
  if clientMethods.contains plan.verb then
    ⟨plan.verb,
      .template pieces :: plan.body.toList.map objectOperand ++
        query.map fun member => .object [member]⟩
  else
    ⟨"request",
      [.object ([("method", .text plan.verb), ("url", .template pieces)] ++
        plan.body.toList.map (fun bindings => ("data", objectOperand bindings)) ++ query)]⟩

theorem readsMember_bindingEntry {b : Binding}
    (identifier : Naming.isIdentifier b.key.toList = true) :
    ReadsMember (bindingEntry b) (b.wireName, .name b.key) := by
  simp only [bindingEntry]
  split
  · rename_i same
    rw [← same]
    exact readsMember_shorthand identifier
  · exact readsMember_quoted (readsOperand_name identifier)

theorem readsOperand_objectLiteral {bindings : List Binding}
    (identifiers : ∀ b ∈ bindings, Naming.isIdentifier b.key.toList = true) :
    ReadsOperand (objectLiteral bindings) (objectOperand bindings) := by
  cases bindings with
  | nil => exact readsOperand_empty
  | cons first rest =>
      let members := (first :: rest).map fun b => (bindingEntry b, b.wireName, Operand.name b.key)
      have reads := @readsOperand_object members (by simp [members]) (by
        intro member inside
        obtain ⟨b, present, rfl⟩ := List.mem_map.mp inside
        exact readsMember_bindingEntry (identifiers b present))
      simpa [members, objectLiteral, objectOperand, Function.comp_def] using reads

def Usable (plan : RequestPlan) : Prop :=
  ∀ bindings, plan.body = some bindings ∨ plan.query = some bindings →
    ∀ b ∈ bindings, Naming.isIdentifier b.key.toList = true

theorem isIdentifier_clientMethod {method : String} (known : clientMethods.contains method = true) :
    Naming.isIdentifier method.toList = true := by
  have each : ∀ method ∈ clientMethods, Naming.isIdentifier method.toList = true := by
    decide +kernel
  exact each method (by simpa using known)

theorem isIdentifier_option {name : String}
    (option : name ∈ ["method", "url", "data", "params"]) :
    Naming.isIdentifier name.toList = true := by
  have each : ∀ name ∈ ["method", "url", "data", "params"],
      Naming.isIdentifier name.toList = true := by decide +kernel
  exact each name option

section ReadBack

variable {plan : RequestPlan} {pieces : List Piece}

theorem readCall?_methodCall (usable : Usable plan)
    (template : ReadsOperand (templateLiteral plan.path) (.template pieces))
    (known : clientMethods.contains plan.verb = true) :
    readCall? (requestCall plan) = some (callOf plan pieces) := by
  let operands : List (String × Operand) :=
    (templateLiteral plan.path, .template pieces) ::
      plan.body.toList.map (fun bindings => (objectLiteral bindings, objectOperand bindings)) ++
      plan.query.toList.map fun bindings =>
        ("\x7b " ++ ("params: " ++ objectLiteral bindings) ++ " \x7d",
          .object [("params", objectOperand bindings)])
  have each : ∀ operand ∈ operands, ReadsOperand operand.1 operand.2 := by
    intro operand member
    simp only [operands, List.cons_append, List.mem_cons, List.mem_append, List.mem_map,
      Option.mem_toList] at member
    rcases member with rfl | ⟨bindings, body, rfl⟩ | ⟨bindings, query, rfl⟩
    · exact template
    · exact readsOperand_objectLiteral (usable bindings (.inl body))
    · have reads := @readsMember_plain "params" _ _ (isIdentifier_option (by simp))
        (readsOperand_objectLiteral (usable bindings (.inr query)))
      have object := @readsOperand_object [(_, _, _)] (by simp) (by simpa using reads)
      simpa using object
  have read := readCall?_of_reads (isIdentifier_clientMethod known) (by simp [operands]) each
  have written : requestCall plan =
      "client." ++ plan.verb ++ "(" ++ String.intercalate ", " (operands.map Prod.fst) ++ ")" := by
    have member : plan.verb ∈ clientMethods := by simpa using known
    simp [requestCall, member, operands, Function.comp_def]
  rw [written, read, callOf, if_pos known]
  simp [operands, Function.comp_def]

theorem readCall?_generalCall (usable : Usable plan)
    (template : ReadsOperand (templateLiteral plan.path) (.template pieces))
    (unknown : clientMethods.contains plan.verb = false) :
    readCall? (requestCall plan) = some (callOf plan pieces) := by
  let members : List (String × String × Operand) :=
    [("method: " ++ stringLiteral plan.verb, "method", .text plan.verb),
        ("url: " ++ templateLiteral plan.path, "url", .template pieces)] ++
      plan.body.toList.map (fun bindings =>
        ("data: " ++ objectLiteral bindings, "data", objectOperand bindings)) ++
      plan.query.toList.map fun bindings =>
        ("params: " ++ objectLiteral bindings, "params", objectOperand bindings)
  have each : ∀ member ∈ members, ReadsMember member.1 member.2 := by
    intro member inside
    simp only [members, List.cons_append, List.nil_append, List.mem_cons, List.mem_append,
      List.mem_map, Option.mem_toList] at inside
    rcases inside with rfl | rfl | ⟨bindings, body, rfl⟩ | ⟨bindings, query, rfl⟩
    · exact @readsMember_plain "method" _ _ (isIdentifier_option (by simp))
        (readsOperand_text plan.verb)
    · exact @readsMember_plain "url" _ _ (isIdentifier_option (by simp)) template
    · exact @readsMember_plain "data" _ _ (isIdentifier_option (by simp))
        (readsOperand_objectLiteral (usable bindings (.inl body)))
    · exact @readsMember_plain "params" _ _ (isIdentifier_option (by simp))
        (readsOperand_objectLiteral (usable bindings (.inr query)))
  have object := readsOperand_object (by simp [members]) each
  have general : Naming.isIdentifier "request".toList = true := by decide +kernel
  have read := @readCall?_of_reads "request" [(_, _)] general (by simp) (by simpa using object)
  have written : requestCall plan =
      "client." ++ "request" ++ "(" ++ String.intercalate ", "
        ["\x7b " ++ String.intercalate ", " (members.map Prod.fst) ++ " \x7d"] ++ ")" := by
    have absent : plan.verb ∉ clientMethods := by simpa using unknown
    have opening : "client.request(\x7b " = "client.request(" ++ "\x7b " := rfl
    have closing : " \x7d)" = " \x7d" ++ ")" := rfl
    simp [requestCall, absent, members, Function.comp_def]
    rw [opening, closing]
    simp only [String.append_assoc]
  rw [written, callOf, if_neg (by simpa using unknown)]
  simpa [members, Function.comp_def] using read

end ReadBack

theorem readCall?_requestCall {plan : RequestPlan} {pieces : List Piece} (usable : Usable plan)
    (template : ReadsOperand (templateLiteral plan.path) (.template pieces)) :
    readCall? (requestCall plan) = some (callOf plan pieces) := by
  cases known : clientMethods.contains plan.verb with
  | true => exact readCall?_methodCall usable template known
  | false => exact readCall?_generalCall usable template known

/-! What the call sends. -/

section Evaluation

variable {ν : Type} {scope : Scope ν} {rho : String → ν}

/-- The names that are sent, with the values of the keys that stand for them. -/
def sent (rho : String → ν) (bindings : List Binding) : List (String × ν) :=
  bindings.map fun b => (b.wireName, rho b.key)

def given (rho : String → ν) (bindings : List Binding) : Datum ν :=
  .record (bindings.map fun b => (b.wireName, .given (rho b.key)))

@[simp] theorem pairs?_given (rho : String → ν) (bindings : List Binding) :
    (given rho bindings).pairs? = some (sent rho bindings) := by
  rw [given, Datum.pairs?, sent]
  induction bindings with
  | nil => rfl
  | cons b bindings ih => simp [ih]

theorem evaluate?_objectOperand {bindings : List Binding}
    (bound : ∀ b ∈ bindings, scope.value? b.key = some (rho b.key)) :
    (objectOperand bindings).evaluate? scope = some (given rho bindings) := by
  have members : evaluateMembers? scope (bindings.map fun b => (b.wireName, .name b.key)) =
      some (bindings.map fun b => (b.wireName, .given (rho b.key))) := by
    induction bindings with
    | nil => rfl
    | cons b bindings ih =>
        simp [evaluateMembers?, Operand.evaluate?, bound b (by simp),
          ih fun other member => bound other (by simp [member])]
  simp [objectOperand, Operand.evaluate?, members, given]

theorem evaluateMembers?_option (name : String) {bindings : Option (List Binding)}
    (bound : ∀ list, bindings = some list → ∀ b ∈ list, scope.value? b.key = some (rho b.key)) :
    evaluateMembers? scope (bindings.toList.map fun list => (name, objectOperand list)) =
      some (bindings.toList.map fun list => (name, given rho list)) := by
  cases bindings with
  | none => rfl
  | some list => simp [evaluateMembers?, evaluate?_objectOperand (bound list rfl)]

theorem evaluateMembers?_append {first second : List (String × Operand)}
    {values values' : List (String × Datum ν)}
    (left : evaluateMembers? scope first = some values)
    (right : evaluateMembers? scope second = some values') :
    evaluateMembers? scope (first ++ second) = some (values ++ values') := by
  induction first generalizing values with
  | nil =>
      cases left
      exact right
  | cons member first ih =>
      simp only [evaluateMembers?, Option.bind_eq_bind, Option.bind_eq_some_iff] at left
      obtain ⟨value, one, rest, more, same⟩ := left
      cases same
      simp [evaluateMembers?, one, ih more]

theorem evaluate?_template {keyOf : String → String} {pieces : List Piece}
    (bound : ∀ name, .hole name ∈ pieces → scope.value? (keyOf name) = some (rho (keyOf name))) :
    (Operand.template (pieces.map (renamed keyOf))).evaluate? scope =
      some (.text (String.ofList
        (pieces.flatMap (filled fun name => scope.shown (rho (keyOf name)))))) := by
  have texts : (pieces.map (renamed keyOf)).mapM (Piece.text? scope) =
      some (pieces.map fun piece =>
        String.ofList (filled (fun name => scope.shown (rho (keyOf name))) piece)) := by
    induction pieces with
    | nil => rfl
    | cons piece pieces ih =>
        have more := ih fun name member => bound name (by simp [member])
        cases piece with
        | character c => simp [renamed, Piece.text?, more, filled]
        | hole name => simp [renamed, Piece.text?, more, filled, bound name (by simp)]
  have joined : String.join (pieces.map fun piece =>
        String.ofList (filled (fun name => scope.shown (rho (keyOf name))) piece)) =
      String.ofList (pieces.flatMap (filled fun name => scope.shown (rho (keyOf name)))) := by
    rw [← String.toList_inj]
    simp [String.toList_join, List.flatMap_map]
  simp [Operand.evaluate?, texts, joined]

theorem mapM_evaluate?_operands {address : Operand} {url : String}
    {body query : Option (List Binding)} (read : address.evaluate? scope = some (.text url))
    (bodyBound : ∀ list, body = some list → ∀ b ∈ list, scope.value? b.key = some (rho b.key))
    (queryBound : ∀ list, query = some list → ∀ b ∈ list, scope.value? b.key = some (rho b.key)) :
    (address :: body.toList.map objectOperand ++
        (query.toList.map fun list => ("params", objectOperand list)).map fun member =>
          Operand.object [member]).mapM (Operand.evaluate? scope) =
      some (.text url :: body.toList.map (given rho) ++
        query.toList.map fun list => .record [("params", given rho list)]) := by
  have options : ∀ list, query = some list →
      (Operand.object [("params", objectOperand list)]).evaluate? scope =
        some (.record [("params", given rho list)]) := by
    intro list same
    simp [Operand.evaluate?, evaluateMembers?, evaluate?_objectOperand (queryBound list same)]
  cases body with
  | none =>
      cases query with
      | none => simp [read]
      | some list => simp [read, options list rfl]
  | some sentBody =>
      have read' := evaluate?_objectOperand (bodyBound sentBody rfl)
      cases query with
      | none => simp [read, read']
      | some list => simp [read, read', options list rfl]

theorem methodRequest?_given {verb url : String} {body query : Option (List Binding)}
    (place : body.isSome = bodyMethods.contains verb) :
    methodRequest? verb (.text url :: body.toList.map (given rho) ++
        query.toList.map fun list => .record [("params", given rho list)]) =
      some ⟨verb, url, (query.map (sent rho)).getD [], body.map (sent rho)⟩ := by
  have options : optionsQuery? (query.toList.map fun list =>
      Datum.record [("params", given rho list)]) = some ((query.map (sent rho)).getD []) := by
    cases query <;> simp [optionsQuery?]
  cases body with
  | none =>
      have takesNone : bodyMethods.contains verb = false := place.symm
      simp [methodRequest?, Datum.text?, options] at takesNone ⊢
      simp [takesNone]
  | some list =>
      have takesOne : bodyMethods.contains verb = true := place.symm
      simp [methodRequest?, Datum.text?, options] at takesOne ⊢
      simp [takesOne]

theorem generalRequest?_given {verb url : String} {body query : Option (List Binding)} :
    generalRequest? ([("method", .text verb), ("url", .text url)] ++
        body.toList.map (fun list => ("data", given rho list)) ++
        query.toList.map fun list => ("params", given rho list)) =
      some ⟨verb, url, (query.map (sent rho)).getD [], body.map (sent rho)⟩ := by
  cases body <;> cases query <;> simp [generalRequest?, Datum.text?, List.lookup_cons]

theorem evaluateMembers?_general (verb : String) {address : Operand} {url : String}
    (read : address.evaluate? scope = some (.text url)) :
    evaluateMembers? scope [("method", .text verb), ("url", address)] =
      some [("method", .text verb), ("url", .text url)] := by
  simp [evaluateMembers?, Operand.evaluate?, read]

theorem request?_callOf {plan : RequestPlan} {keyOf : String → String} {pieces : List Piece}
    (place : clientMethods.contains plan.verb = true →
      plan.body.isSome = bodyMethods.contains plan.verb)
    (holes : ∀ name, .hole name ∈ pieces → scope.value? (keyOf name) = some (rho (keyOf name)))
    (bound : ∀ bindings, plan.body = some bindings ∨ plan.query = some bindings →
      ∀ b ∈ bindings, scope.value? b.key = some (rho b.key)) :
    (callOf plan (pieces.map (renamed keyOf))).request? scope =
      some {
        verb := plan.verb
        url := String.ofList (pieces.flatMap (filled fun name => scope.shown (rho (keyOf name))))
        query := (plan.query.map (sent rho)).getD []
        body := plan.body.map (sent rho) } := by
  have address := @evaluate?_template ν scope rho _ _ holes
  generalize String.ofList
    (pieces.flatMap (filled fun name => scope.shown (rho (keyOf name)))) = url at address ⊢
  cases known : clientMethods.contains plan.verb with
  | true =>
      have named : plan.verb ≠ "request" := by
        rintro same
        rw [same] at known
        exact absurd known (by decide +kernel)
      have arguments := mapM_evaluate?_operands address
        (fun list same => bound list (.inl same)) (fun list same => bound list (.inr same))
      rw [callOf, if_pos known, Call.request?]
      simp only [arguments, Option.bind_eq_bind, Option.bind_some, if_neg named]
      exact methodRequest?_given (place known)
  | false =>
      have options := evaluateMembers?_general plan.verb address
      have body := evaluateMembers?_option "data" fun list same => bound list (.inl same)
      have query := evaluateMembers?_option "params" fun list same => bound list (.inr same)
      have record := evaluateMembers?_append (evaluateMembers?_append options body) query
      rw [callOf, if_neg (by rw [known]; decide), Call.request?]
      simp only [List.mapM_cons, List.mapM_nil, Operand.evaluate?, record]
      exact generalRequest?_given

end Evaluation

/-! Calls of derived actions. -/

/-- The values of the arguments that a generated function is given; no other name has one. -/
def argumentScope {ν : Type} (arguments : List String) (rho : String → ν) (shown : ν → String) :
    Scope ν :=
  ⟨fun name => if arguments.contains name then some (rho name) else none, shown⟩

/-- The request that a call makes with the values of its function's arguments. -/
def requestOf {ν : Type} (plan : RequestPlan) (rho : String → ν) (shown : ν → String) :
    Option (Request ν) :=
  (readCall? (requestCall plan)).bind
    (Call.request? (argumentScope plan.arguments rho shown))

/-- The values of inputs under the names that the interface expects. -/
def sentInputs {ν : Type} (rho : String → ν) (inputs : List Input) : List (String × ν) :=
  inputs.map fun input => (input.wireName, rho input.key)

theorem value?_argument {ν : Type} {arguments : List String} (rho : String → ν)
    (shown : ν → String) {key : String} (member : key ∈ arguments) :
    (argumentScope arguments rho shown).value? key = some (rho key) := by
  simp [argumentScope, member]

section Plan

variable {path verb : String} {inputs : OperationInputs} {seen : List String}

theorem usable_requestPlan (keyed : Keyed reservedInputKeys inputs.all seen) :
    Usable (requestPlan path verb inputs) := by
  intro bindings present b member
  obtain ⟨input, inside, rfl⟩ := binding_requestPlan present b member
  exact keyed.identifiers _ (List.mem_map_of_mem inside)

theorem mem_arguments {input : Input} (inside : input ∈ inputs.all) :
    input.key ∈ (requestPlan path verb inputs).arguments :=
  List.mem_map_of_mem inside

theorem readsOperand_requestPlan (keyed : Keyed reservedInputKeys inputs.all seen)
    (declared : ∀ name ∈ placeholders path,
      ∃ input ∈ inputs.path, pathKey inputs.path name = input.key)
    (uninterpolated : ¬ ['$', '\x7b'] <:+: path.toList) (noReturn : '\r' ∉ path.toList) :
    ReadsOperand (templateLiteral (requestPlan path verb inputs).path)
      (.template ((pathPieces path.toList).map (renamed (pathKey inputs.path)))) := by
  refine readsOperand_template fun rest => ?_
  simp only [requestPlan, interpolate, String.toList_ofList, interpolateFrom_eq_flatMap]
  refine readPieces?_template _ rest uninterpolated noReturn fun name hole => ?_
  obtain ⟨input, inside, same⟩ := declared name (mem_placeholders.mpr hole)
  rw [same]
  exact keyed.identifiers _ (List.mem_map_of_mem (by simp [OperationInputs.all, inside]))

theorem requestOf_requestPlan (keyed : Keyed reservedInputKeys inputs.all seen)
    (declared : ∀ name ∈ placeholders path,
      ∃ input ∈ inputs.path, pathKey inputs.path name = input.key)
    (uninterpolated : ¬ ['$', '\x7b'] <:+: path.toList) (noReturn : '\r' ∉ path.toList)
    {ν : Type} (rho : String → ν) (shown : ν → String) :
    requestOf (requestPlan path verb inputs) rho shown =
      some {
        verb
        url := fillPath (fun name => shown (rho (pathKey inputs.path name))) path
        query := sentInputs rho inputs.query
        body := if bodyVerbs.contains verb then some (sentInputs rho inputs.body) else none } := by
  have template := @readsOperand_requestPlan path verb _ _ keyed declared uninterpolated noReturn
  have holes : ∀ name, .hole name ∈ pathPieces path.toList →
      (argumentScope (requestPlan path verb inputs).arguments rho shown).value?
        (pathKey inputs.path name) = some (rho (pathKey inputs.path name)) := by
    intro name hole
    obtain ⟨input, inside, same⟩ := declared name (mem_placeholders.mpr hole)
    rw [same]
    exact value?_argument rho shown (mem_arguments (by simp [OperationInputs.all, inside]))
  have place : (requestPlan path verb inputs).body.isSome = bodyMethods.contains verb := by
    show (if bodyVerbs.contains verb then some _ else none).isSome = bodyVerbs.contains verb
    split <;> simp_all
  have sentAll (list : List Input) :
      sent rho (list.map Binding.ofInput) = sentInputs rho list := by
    simp [sent, sentInputs, Binding.ofInput, Function.comp_def]
  have query : ((requestPlan path verb inputs).query.map (sent rho)).getD [] =
      sentInputs rho inputs.query := by
    simp only [requestPlan]
    split
    · rename_i empty
      simp [sentInputs, List.isEmpty_iff.mp empty]
    · exact sentAll inputs.query
  have body : (requestPlan path verb inputs).body.map (sent rho) =
      if bodyVerbs.contains verb then some (sentInputs rho inputs.body) else none := by
    simp only [requestPlan]
    split
    · exact congrArg some (sentAll inputs.body)
    · rfl
  have called := request?_callOf (fun _ => place) holes fun bindings present b member => by
    obtain ⟨input, inside, rfl⟩ := binding_requestPlan present b member
    exact value?_argument rho shown (mem_arguments inside)
  rw [requestOf, readCall?_requestCall (usable_requestPlan keyed) template, Option.bind_some,
    called, query, body]
  rfl

end Plan

theorem requestOf_buildAction {path verb : String} {operation : Openapi.Operation}
    {shared : List (Openapi.Node Openapi.Parameter)} {seen seen' : List String} {action : Action}
    {log log' : Log} {merged : List Openapi.Parameter}
    (built : (buildAction path verb operation shared seen).run log = (.ok (action, seen'), log'))
    (parameters : mergeParameters shared (operation.parameters.getD [])
      (operationLabel path verb) = .ok merged)
    (declared : ∀ name ∈ placeholders path, ∃ p ∈ merged, p.name = name ∧ p.place = "path")
    (uninterpolated : ¬ ['$', '\x7b'] <:+: path.toList) (noReturn : '\r' ∉ path.toList) :
    ∃ inputs, operationInputs operation shared (operationLabel path verb) = .ok inputs ∧
      (∀ name ∈ placeholders path, ∃ input ∈ inputs.path, input.wireName = name) ∧
      ∃ keyOf : String → String, (∀ input ∈ inputs.path, keyOf input.wireName = input.key) ∧
        ∀ (ν : Type) (rho : String → ν) (shown : ν → String),
          requestOf action.request rho shown =
            some {
              verb
              url := fillPath (fun name => shown (rho (keyOf name))) path
              query := sentInputs rho inputs.query
              body :=
                if bodyVerbs.contains verb then some (sentInputs rho inputs.body) else none } := by
  obtain ⟨key, groupTag, inputs, derived, rfl⟩ := buildAction_ok built
  obtain ⟨merged', same, pathNames, -, after, keyed⟩ := operationInputs_ok derived
  obtain rfl : merged' = merged := Except.ok.inj (same.symm.trans parameters)
  have distinct : (inputs.path.map Input.wireName).Nodup := by
    rw [pathNames]
    exact (nodup_mergeParameters parameters).sublist (List.filter_sublist.map _)
  have present : ∀ name ∈ placeholders path, ∃ input ∈ inputs.path, input.wireName = name := by
    intro name hole
    obtain ⟨p, member, named, place⟩ := declared name hole
    have inside : name ∈ inputs.path.map Input.wireName := by
      rw [pathNames]
      exact List.mem_map.mpr ⟨p, List.mem_filter.mpr ⟨member, by simp [place]⟩, named⟩
    exact List.mem_map.mp inside
  refine ⟨inputs, derived, present, pathKey inputs.path,
    fun input member => pathKey_wireName distinct member, fun ν rho shown => ?_⟩
  refine requestOf_requestPlan keyed (fun name hole => ?_) uninterpolated noReturn rho shown
  obtain ⟨input, member, rfl⟩ := present name hole
  exact ⟨input, member, pathKey_wireName distinct member⟩

def bareParameter (name place : String) : Openapi.Parameter :=
  ⟨name, place, .absent, .absent, .absent, []⟩

/-- An operation with two parameters whose names give the same identifier. -/
def userOperation : Openapi.Operation :=
  { operationId := .absent
    summary := .absent
    description := .absent
    tags := .absent
    parameters := some
      [.inline (bareParameter "user-id" "path"), .inline (bareParameter "user_id" "query")]
    requestBody := .absent
    extras := [] }

theorem requestOf_buildAction_user :
    ∃ action seen log,
      (buildAction "/users/{user-id}" "get" userOperation [] []).run #[] =
          (.ok (action, seen), log) ∧
        ∃ inputs, operationInputs userOperation [] "GET /users/{user-id}" = .ok inputs ∧
          ∃ keyOf : String → String, (∀ input ∈ inputs.path, keyOf input.wireName = input.key) ∧
            ∀ (ν : Type) (rho : String → ν) (shown : ν → String),
              requestOf action.request rho shown =
                some {
                  verb := "get"
                  url := fillPath (fun name => shown (rho (keyOf name))) "/users/{user-id}"
                  query := sentInputs rho inputs.query
                  body := none } := by
  have succeeds : ((buildAction "/users/{user-id}" "get" userOperation [] []).run #[]).1.isOk =
      true := by decide +kernel
  have names : placeholders "/users/{user-id}" = ["user-id"] := by decide +kernel
  have label : operationLabel "/users/{user-id}" "get" = "GET /users/{user-id}" := by
    decide +kernel
  rcases ran : (buildAction "/users/{user-id}" "get" userOperation [] []).run #[] with
    ⟨result, log⟩
  rw [ran] at succeeds
  match result with
  | .error problem => cases succeeds
  | .ok (action, seen) =>
      have parameters : mergeParameters [] (userOperation.parameters.getD [])
          (operationLabel "/users/{user-id}" "get") =
            .ok [bareParameter "user-id" "path", bareParameter "user_id" "query"] := rfl
      obtain ⟨inputs, derived, -, keyOf, keys, sends⟩ :=
        requestOf_buildAction ran parameters (by simp [names, bareParameter]) (by decide +kernel)
          (by decide +kernel)
      rw [label] at derived
      exact ⟨action, seen, log, rfl, inputs, derived, keyOf, keys, sends⟩

end ApiCompiler.Modules
