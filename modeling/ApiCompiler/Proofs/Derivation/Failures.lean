import ApiCompiler.Proofs.Derivation.ActionKeys
import ApiCompiler.Proofs.World.Failing

/-!
What the derivation of actions may fail with: a reference that is left, a value that cannot be
written, or a number with too many digits. Nothing fails for want of a key.
-/

namespace ApiCompiler.Derivation

open Openapi Component

/-- What is wrong with a document whose actions cannot be derived. -/
inductive IsDocumentFault : Problem → Prop
  | unresolved (target : String) (location : Option String) :
      IsDocumentFault (.declared (.unresolved target location))
  | unwritable (fault : Json.WriteFault) : IsDocumentFault (.undeclared (.unwritable fault))
  | digits (count : Nat) : IsDocumentFault (.undeclared (.digits count))

section Inputs

theorem resolved_fails {α : Type} (node : Node α) (location : String) :
    FailsWith IsDocumentFault (resolved node location) := by
  cases node with
  | inline value => exact .ok value
  | reference r => exact .error (.unresolved _ _)

theorem display_fails (value : Value) : FailsWith IsDocumentFault (display value) := by
  rw [display]
  cases value.display with
  | ok text => exact .ok text
  | error fault => exact .error (.unwritable fault)

theorem choicesOf_fails (values : List Value) : FailsWith IsDocumentFault (choicesOf values) :=
  (FailsWith.mapM (fun value => (display_fails value).bind fun _ => .ok _) _).bind fun _ => .ok _

theorem inputChoices_fails (schema : Option Schema) (location : String) :
    FailsWith IsDocumentFault (inputChoices schema location) := by
  cases schema with
  | none => exact .ok none
  | some schema =>
    simp only [inputChoices]
    split
    · exact .ok none
    · split
      · exact choicesOf_fails _
      · split
        · exact .ok _
        · exact (resolved_fails _ _).bind fun wrapped => choicesOf_fails _

theorem buildInput_fails (source : InputSource) (seen : List String) :
    FailsWith IsDocumentFault (buildInput source seen) :=
  (FailsWith.optionMapM display_fails _).bind fun _ =>
    (FailsWith.optionMapM display_fails _).bind fun _ =>
      (inputChoices_fails _ _).bind fun _ => .ok _

theorem buildParameterInput_fails (parameter : Parameter) (seen : List String)
    (location : String) : FailsWith IsDocumentFault (buildParameterInput parameter seen location) :=
  (FailsWith.optionMapM (fun node => resolved_fails node _) _).bind fun _ => buildInput_fails _ _

theorem buildEach_fails {α : Type}
    {build : α → List String → Except Problem (Input × List String)}
    (each : ∀ source seen, FailsWith IsDocumentFault (build source seen)) :
    (sources : List α) → (seen : List String) →
      FailsWith IsDocumentFault (buildEach build sources seen)
  | [], _ => .ok _
  | source :: sources, seen =>
      (each source seen).bind fun made =>
        (buildEach_fails each sources made.2).bind fun _ => .ok _

theorem resolveFrom_fails (location : String) :
    (index : Nat) → (nodes : List (Node Parameter)) →
      FailsWith IsDocumentFault (resolveFrom location index nodes)
  | _, [] => .ok _
  | index, node :: rest =>
      (resolved_fails node _).bind fun _ =>
        (resolveFrom_fails location (index + 1) rest).bind fun _ => .ok _

theorem mergeParameters_fails (shared own : List (Node Parameter)) (location : String) :
    FailsWith IsDocumentFault (mergeParameters shared own location) :=
  (resolveFrom_fails location 0 _).bind fun _ => .ok _

theorem resolveMembers_fails (location : String) :
    (index : Nat) → (nodes : List (Node Schema)) →
      FailsWith IsDocumentFault (resolveMembers location index nodes)
  | _, [] => .ok _
  | index, node :: rest =>
      (resolved_fails node _).bind fun _ =>
        (resolveMembers_fails location (index + 1) rest).bind fun _ => .ok _

theorem flattenProperties_fails (schema : Schema) (location : String) :
    FailsWith IsDocumentFault (flattenProperties schema location) :=
  (resolveMembers_fails location 0 _).bind fun _ =>
    (FailsWith.mapM (fun (property : String × Node Schema) =>
      (resolved_fails property.2 _).bind fun _ => .ok _) _).bind fun _ => .ok _

theorem buildBodyInputs_fails (schema : Schema) (seen : List String) (location : String) :
    FailsWith IsDocumentFault (buildBodyInputs schema seen location) :=
  (flattenProperties_fails schema location).bind fun _ =>
    buildEach_fails (fun _ _ => buildInput_fails _ _) _ _

theorem bodySchema_fails (operation : Operation) (location : String) :
    FailsWith IsDocumentFault (bodySchema operation location) := by
  rw [bodySchema]
  split
  · exact .ok _
  · refine (resolved_fails _ _).bind fun body => ?_
    split
    · exact .ok _
    · exact (resolved_fails _ _).bind fun _ => .ok _

theorem operationInputs_fails (operation : Operation) (shared : List (Node Parameter))
    (location : String) : FailsWith IsDocumentFault (operationInputs operation shared location) := by
  refine (mergeParameters_fails _ _ _).bind fun parameters => ?_
  refine (buildEach_fails (fun _ _ => buildParameterInput_fails _ _ _) _ _).bind fun path => ?_
  refine (buildEach_fails (fun _ _ => buildParameterInput_fails _ _ _) _ _).bind fun query => ?_
  refine (bodySchema_fails _ _).bind fun schema => ?_
  cases schema with
  | none => exact .ok _
  | some schema => exact (buildBodyInputs_fails _ _ _).bind fun _ => .ok _

end Inputs

theorem buildAction_fails (path : String) (verb : Verb) (operation : Operation)
    (shared : List (Node Parameter)) (seen : List String) :
    Logged.FailsWith IsDocumentFault (buildAction path verb.name operation shared seen) := by
  obtain ⟨key, after, named, -⟩ := actionKey_given path verb operation.operationId.toOption seen
  have keyed : FailsWith IsDocumentFault
      (actionKey path verb.name operation.operationId.toOption seen) := named ▸ .ok _
  refine (Logged.FailsWith.ofExcept keyed).bind fun _ => ?_
  refine ((Logged.FailsWith.ofExcept (operationInputs_fails _ _ _)).bind fun inputs =>
    (Logged.FailsWith.note _ _ _).bind fun _ => .pure _).bind fun inputs => ?_
  have tagged : FailsWith IsDocumentFault
      ((Naming.groupTag path).mapError fun fault => .undeclared (.digits fault.count)) := by
    cases Naming.groupTag path with
    | ok tag => exact .ok tag
    | error fault => exact .error (.digits _)
  exact (Logged.FailsWith.ofExcept tagged).bind fun _ =>
    (Logged.FailsWith.note _ _ _).bind fun _ => .pure _

theorem buildActions_fails (document : Document) :
    Logged.FailsWith IsDocumentFault (buildActions document) := by
  refine (Logged.FailsWith.foldlM (fun state entry => ?_) _ _).bind fun _ => .pure _
  refine (Logged.FailsWith.foldlM (fun state entry => ?_) _ _).bind fun _ => .pure _
  exact (buildAction_fails _ _ _ _ _).bind fun _ => .pure _

/--
Every operation gets an action of its own: one for each path and verb in document order, under a key
that no other action has and that no generated module binds otherwise. Want of a key is never why
there are no actions.
-/
theorem buildActions_distinct_keys (document : Document) (log : Log) :
    (∀ context, ((buildActions document).run log).1 ≠
      .error (.declared (.missing "action key" context))) ∧
    ∀ actions log', (buildActions document).run log = (.ok actions, log') →
      List.Forall₂ Performs (endpoints document) actions ∧
      (actions.map Action.key).Nodup ∧
      ∀ action ∈ actions, Naming.isIdentifier action.key.toList = true ∧
        action.key ∉ Naming.replacements.map Prod.fst ∧ action.key ∉ reservedActionKeys := by
  refine ⟨fun context failed => ?_, fun actions log' built => ?_⟩
  · cases buildActions_fails document log _ failed
  · obtain ⟨seen, distinguished⟩ := buildActions_distinguished built
    refine ⟨distinguished.performed, distinguished.given.distinct, fun action member => ?_⟩
    have listed := List.mem_map_of_mem (f := Action.key) member
    exact ⟨distinguished.given.identifiers _ listed,
      distinguished.given.not_mem_replacements _ listed, distinguished.given.unused _ listed⟩

def namedOperation (operationId : String) : Operation :=
  { operationId := .given operationId
    summary := .absent
    description := .absent
    tags := .absent
    parameters := none
    requestBody := .absent
    extras := [] }

def twinItem (operationId : String) : PathItem :=
  { summary := .absent
    description := .absent
    parameters := none
    operation := fun verb =>
      if verb = .get ∨ verb = .put then .given (namedOperation operationId) else .absent
    extras := [] }

/-- Four operations that want one key, which is reserved. -/
def twinDocument : Document :=
  { openapi := "3.0.0"
    info := ⟨"Twins", .absent, none, []⟩
    servers := none
    paths := some [("/a", twinItem "rawRequest"), ("/b", twinItem "rawRequest")]
    components := .absent
    basePath := .absent
    extras := [] }

theorem buildActions_distinct_keys_twins :
    ∃ actions log, (buildActions twinDocument).run #[] = (.ok actions, log) ∧
      List.Forall₂ Performs (endpoints twinDocument) actions ∧
      (endpoints twinDocument).length = 4 ∧ (actions.map Action.key).Nodup := by
  have succeeds : ((buildActions twinDocument).run #[]).1.isOk = true := by decide +kernel
  rcases ran : (buildActions twinDocument).run #[] with ⟨result, log⟩
  rw [ran] at succeeds
  match result with
  | .error problem => cases succeeds
  | .ok actions =>
      obtain ⟨performed, distinct, -⟩ :=
        (buildActions_distinct_keys twinDocument #[]).2 actions log ran
      exact ⟨actions, log, rfl, performed, rfl, distinct⟩

end ApiCompiler.Derivation
