import ApiCompiler.Derivation.Blueprint
import ApiCompiler.Proofs.Derivation.Actions
import ApiCompiler.Proofs.World.Failing

/-!
The actions of a document: one for each path and verb, all with different keys.
-/

namespace ApiCompiler.Derivation

open Openapi Component

/-! One key. -/

theorem toList_operationName (verb : Verb) (path : String) :
    (verb.name ++ " " ++ path).toList = verb.name.toList ++ ' ' :: path.toList := by
  simp

theorem isIdentifier_operationName (verb : Verb) (path : String) :
    Naming.isIdentifier (Naming.cleanIdentifier (verb.name ++ " " ++ path)).toList = true := by
  have some : verb.name.toList ≠ [] := by cases verb <;> simp [Verb.name]
  have lower : ∀ c ∈ verb.name.toList, c.isLower = true := by cases verb <;> simp [Verb.name]
  exact Naming.isIdentifier_cleanIdentifier_lower some lower (toList_operationName verb path)

theorem keyCandidates_ne_nil (verb : Verb) (path : String) (operationId : Option String) :
    keyCandidates path verb.name operationId ≠ [] := by
  have identifier := isIdentifier_operationName verb path
  have candidate : verb.name ++ " " ++ path ∈ keyCandidates path verb.name operationId := by
    refine List.mem_filter.mpr ⟨by simp, ?_⟩
    rw [Bool.and_eq_true, Bool.not_eq_true', Bool.not_eq_true']
    constructor
    · rw [← Bool.not_eq_true, String.isEmpty_iff]
      intro empty
      have length := congrArg (·.toList.length) empty
      simp at length
    · rw [← Bool.not_eq_true, String.isEmpty_iff]
      intro empty
      rw [empty] at identifier
      cases identifier
  intro none
  rw [none] at candidate
  cases candidate

/-- There is always a key for an action, and it is new. -/
theorem actionKey_given (path : String) (verb : Verb) (operationId : Option String)
    (seen : List String) :
    ∃ key seen', actionKey path verb.name operationId seen = .ok (key, seen') ∧
      Naming.Given seen [key] seen' := by
  have some := keyCandidates_ne_nil verb path operationId
  rw [actionKey]
  cases candidates : keyCandidates path verb.name operationId with
  | nil => exact absurd candidates some
  | cons first rest =>
      dsimp only
      split
      · rename_i key found
        refine ⟨key, _, rfl, ?_⟩
        have unused := List.find?_some found
        obtain ⟨name, member, rfl⟩ := List.mem_map.mp (List.mem_of_find?_eq_some found)
        rw [← candidates, keyCandidates, List.mem_filter, Bool.and_eq_true] at member
        refine .remember (Naming.isFree_cleanIdentifier_iff.mpr ⟨?_, ?_⟩)
          (Naming.replacement?_cleanIdentifier name)
        · simpa using member.2.2
        · simpa using unused
      · exact ⟨_, _, rfl, Naming.Given.uniqueIdentifier first seen⟩

theorem buildAction_key {path : String} {verb : Verb} {operation : Operation}
    {shared : List (Node Parameter)} {seen seen' : List String} {action : Action} {log log' : Log}
    (built : (buildAction path verb.name operation shared seen).run log =
      (.ok (action, seen'), log')) : Naming.Given seen [action.key] seen' := by
  obtain ⟨key, after, named, given⟩ :=
    actionKey_given path verb operation.operationId.toOption seen
  simp only [buildAction, Logged.run_bind_eq_ok, Logged.run_ofExcept, named] at built
  obtain ⟨_, _, ⟨⟩, inputs, _, -, groupTag, _, -, _, _, -, ⟨⟩⟩ := built
  exact given

/-! All actions. -/

structure Endpoint where
  path : String
  verb : Verb
  operation : Operation
  shared : List (Node Parameter)

def endpointsOf (path : String) (item : PathItem) : List Endpoint :=
  Verb.all.filterMap fun verb =>
    (item.operation verb).toOption.map fun operation =>
      ⟨path, verb, operation, item.parameters.getD []⟩

/-- The operations of a document, in the order of its paths. -/
def endpoints (document : Document) : List Endpoint :=
  (document.paths.getD []).flatMap fun entry => endpointsOf entry.1 entry.2

/-- The action is the one of the operation. -/
def Performs (endpoint : Endpoint) (action : Action) : Prop :=
  ∃ groupTag inputs,
    operationInputs endpoint.operation endpoint.shared
      (operationLabel endpoint.path endpoint.verb.name) = .ok inputs ∧
    Naming.groupTag endpoint.path = .ok groupTag ∧
    action =
      actionOf endpoint.path endpoint.verb.name endpoint.operation action.key groupTag inputs

/-- One action for each operation, in the same order and with keys of their own. -/
structure Distinguished (seen : List String) (endpoints : List Endpoint) (actions : List Action)
    (seen' : List String) : Prop where
  performed : List.Forall₂ Performs endpoints actions
  given : Naming.Given seen (actions.map Action.key) seen'

namespace Distinguished

theorem nil (seen : List String) : Distinguished seen [] [] seen :=
  ⟨.nil, .nil seen⟩

theorem append {seen seen' seen'' : List String} {first second : List Endpoint}
    {actions others : List Action} (before : Distinguished seen first actions seen')
    (after : Distinguished seen' second others seen'') :
    Distinguished seen (first ++ second) (actions ++ others) seen'' := by
  refine ⟨List.rel_append before.performed after.performed, ?_⟩
  rw [List.map_append]
  exact before.given.append after.given

end Distinguished

theorem buildAction_distinguished {path : String} {verb : Verb} {operation : Operation}
    {shared : List (Node Parameter)} {seen seen' : List String} {action : Action} {log log' : Log}
    (built : (buildAction path verb.name operation shared seen).run log =
      (.ok (action, seen'), log')) :
    Distinguished seen [⟨path, verb, operation, shared⟩] [action] seen' := by
  refine ⟨.cons ?_ .nil, buildAction_key built⟩
  simp only [buildAction, Logged.run_bind_eq_ok, Logged.run_ofExcept] at built
  obtain ⟨⟨key, _⟩, _, -, inputs, _, derived, groupTag, _, tagged, _, _, -, ⟨⟩⟩ := built
  refine ⟨groupTag, inputs, loggedInputs_ok derived, ?_, rfl⟩
  cases tag : Naming.groupTag path with
  | ok tag =>
      rw [tag] at tagged
      cases tagged
      rfl
  | error fault =>
      rw [tag] at tagged
      cases tagged

theorem pathActions_distinguished {path : String} {item : PathItem} {seen seen' : List String}
    {actions : List Action} {log log' : Log}
    (built : (pathActions path item seen).run log = (.ok (actions, seen'), log')) :
    Distinguished seen (endpointsOf path item) actions seen' := by
  let endpointOf (entry : Verb × Operation) : Endpoint :=
    ⟨path, entry.1, entry.2, item.parameters.getD []⟩
  have listed : endpointsOf path item = item.operations.map endpointOf := by
    rw [PathItem.operations, List.map_filterMap]
    simp only [endpointsOf, Option.map_map]
    rfl
  rw [listed]
  let known (done : List (Verb × Operation)) (state : List Action × List String) : Prop :=
    Distinguished seen (done.map endpointOf) state.1 state.2
  have start : known [] ([], seen) := .nil seen
  refine Logged.foldlM_ok known ?_ start built
  rintro done ⟨verb, operation⟩ ⟨actions, before⟩ ⟨actions', after⟩ log log' holds stepped
  simp only [Logged.run_bind_eq_ok] at stepped
  obtain ⟨⟨action, _⟩, _, one, ⟨⟩⟩ := stepped
  show Distinguished seen ((done ++ [(verb, operation)]).map endpointOf) _ _
  rw [List.map_append]
  exact Distinguished.append holds (buildAction_distinguished one)

theorem buildActions_distinguished {document : Document} {actions : List Action} {log log' : Log}
    (built : (buildActions document).run log = (.ok actions, log')) :
    ∃ seen, Distinguished reservedActionKeys (endpoints document) actions seen := by
  simp only [buildActions, Logged.run_bind_eq_ok] at built
  obtain ⟨⟨_, seen⟩, _, folded, ⟨⟩⟩ := built
  let known (done : List (String × PathItem)) (state : List Action × List String) : Prop :=
    Distinguished reservedActionKeys (done.flatMap fun entry => endpointsOf entry.1 entry.2)
      state.1 state.2
  have start : known [] ([], reservedActionKeys) := .nil _
  refine ⟨seen, Logged.foldlM_ok known ?_ start folded⟩
  rintro done ⟨path, item⟩ ⟨actions, before⟩ ⟨actions', after⟩ log log' holds stepped
  simp only [Logged.run_bind_eq_ok] at stepped
  obtain ⟨⟨added, _⟩, _, built, ⟨⟩⟩ := stepped
  show Distinguished reservedActionKeys ((done ++ [(path, item)]).flatMap _) _ _
  rw [List.flatMap_append, List.flatMap_singleton]
  exact Distinguished.append holds (pathActions_distinguished built)

end ApiCompiler.Derivation
