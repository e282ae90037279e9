import ApiCompiler.Proofs.Derivation.ActionKeys
import ApiCompiler.Proofs.Naming.Keeping
import ApiCompiler.Proofs.Validation.Passing

/-!
The connections of a document, all under different keys, and the blueprint that its actions and
connections make.
-/

namespace ApiCompiler.Derivation

open Openapi Component

/-- The connection is the one of the security scheme, but for its key. -/
def Connects (entry : String × Node SecurityScheme) (connection : Connection) : Prop :=
  ∃ scheme own, resolved entry.2 ("security scheme '" ++ entry.1 ++ "'") = .ok scheme ∧
    connectionOf entry.1 scheme = .ok own ∧ connection = { own with key := connection.key }

/-- One connection for each security scheme, in the same order and with keys of their own. -/
structure Connected (schemes : List (String × Node SecurityScheme)) (connections : List Connection)
    (seen : List String) : Prop where
  connects : List.Forall₂ Connects schemes connections
  given : Naming.Given reservedConnectionKeys (connections.map Connection.key) seen

theorem Connected.concat {schemes : List (String × Node SecurityScheme)}
    {connections : List Connection} {before : List String} {entry : String × Node SecurityScheme}
    {connection : Connection} (known : Connected schemes connections before)
    (connects : ∀ key, Connects entry { connection with key := key }) :
    Connected (schemes ++ [entry])
      (connections ++
        [{ connection with key := (Naming.uniqueIdentifier connection.key before).1 }])
      (Naming.uniqueIdentifier connection.key before).2 := by
  refine ⟨List.rel_append known.connects (.cons (connects _) .nil), ?_⟩
  rw [List.map_append]
  exact known.given.append (.uniqueIdentifier connection.key before)

theorem buildConnections_holds {document : Document} {connections : List Connection} {log log' : Log}
    (holds : List (String × Node SecurityScheme) → List Connection → List String → Prop)
    (start : holds [] [] reservedConnectionKeys)
    (each : ∀ done name node scheme connection connections seen, holds done connections seen →
      resolved node ("security scheme '" ++ name ++ "'") = .ok scheme →
      connectionOf name scheme = .ok connection →
      holds (done ++ [(name, node)])
        (connections ++ [{ connection with key := (Naming.uniqueIdentifier connection.key seen).1 }])
        (Naming.uniqueIdentifier connection.key seen).2)
    (built : (buildConnections document).run log = (.ok connections, log')) :
    ∃ seen, holds document.securitySchemes connections seen := by
  simp only [buildConnections, Logged.run_bind_eq_ok] at built
  obtain ⟨⟨_, seen⟩, _, folded, ⟨⟩⟩ := built
  refine ⟨seen, Logged.foldlM_ok (fun done state => holds done state.1 state.2) ?_ start folded⟩
  rintro done ⟨name, node⟩ ⟨connections, before⟩ ⟨connections', after⟩ log log' known stepped
  simp only [Logged.run_bind_eq_ok] at stepped
  obtain ⟨connection, _, one, stepped⟩ := stepped
  simp only [buildConnection, Logged.run_bind_eq_ok, Logged.run_ofExcept] at one
  obtain ⟨scheme, _, inPlace, _, _, made, _, _, -, ⟨⟩⟩ := one
  have step := each done name node scheme connection connections before known
    (Prod.mk.inj inPlace).1 (Prod.mk.inj made).1
  -- A renamed connection is only told about: the result is the same.
  split at stepped
  · simp only [Logged.run_bind_eq_ok] at stepped
    obtain ⟨_, _, -, ⟨⟩⟩ := stepped
    exact step
  · cases stepped
    exact step

theorem buildConnections_connected {document : Document} {connections : List Connection}
    {log log' : Log} (built : (buildConnections document).run log = (.ok connections, log')) :
    ∃ seen, Connected document.securitySchemes connections seen := by
  refine buildConnections_holds Connected ⟨.nil, .nil _⟩ ?_ built
  intro done name node scheme connection connections seen known inPlace made
  exact known.concat fun _ => ⟨scheme, connection, inPlace, made, rfl⟩

/-! Keys that give way. -/

theorem key_connectionOf {name : String} {scheme : SecurityScheme} {connection : Connection}
    (made : connectionOf name scheme = .ok connection) :
    connection.key = Naming.cleanIdentifier name := by
  simp only [connectionOf] at made
  split at made
  · cases made
    rfl
  · split at made
    · cases made
      rfl
    · split at made
      · split at made
        · cases made
          rfl
        · cases made
      · cases made

/-- Every connection has the first free one of the keys for its identifier. -/
def KeyedInTurn (schemes : List (String × Node SecurityScheme)) (connections : List Connection) :
    Prop :=
  ∀ (i : Nat) (name : String) (node : Node SecurityScheme), schemes[i]? = some (name, node) →
    ∃ connection, connections[i]? = some connection ∧
      connection.key = (Naming.uniqueIdentifier (Naming.cleanIdentifier name)
        (reservedConnectionKeys ++ (connections.take i).map Connection.key)).1

theorem KeyedInTurn.concat {schemes : List (String × Node SecurityScheme)}
    {connections : List Connection} (keyed : KeyedInTurn schemes connections)
    (length : schemes.length = connections.length) (name : String) (node : Node SecurityScheme)
    {connection : Connection}
    (first : connection.key = (Naming.uniqueIdentifier (Naming.cleanIdentifier name)
      (reservedConnectionKeys ++ connections.map Connection.key)).1) :
    KeyedInTurn (schemes ++ [(name, node)]) (connections ++ [connection]) := by
  intro i name' node' found
  rcases Nat.lt_or_ge i schemes.length with before | last
  · rw [List.getElem?_append_left before] at found
    obtain ⟨earlier, same, key⟩ := keyed i name' node' found
    refine ⟨earlier, ?_, ?_⟩
    · rw [List.getElem?_append_left (by omega), same]
    · rw [List.take_append_of_le_length (by omega), key]
  · rw [List.getElem?_append_right last, List.getElem?_singleton] at found
    split at found
    · cases found
      obtain rfl : i = connections.length := by omega
      exact ⟨connection, List.getElem?_concat_length, by rw [List.take_left, first]⟩
    · cases found

theorem buildConnections_keyedInTurn {document : Document} {connections : List Connection}
    {log log' : Log} (built : (buildConnections document).run log = (.ok connections, log')) :
    KeyedInTurn document.securitySchemes connections := by
  let known (done : List (String × Node SecurityScheme)) (connections : List Connection)
      (seen : List String) : Prop := Connected done connections seen ∧ KeyedInTurn done connections
  have start : known [] [] reservedConnectionKeys := ⟨⟨.nil, .nil _⟩, by simp [KeyedInTurn]⟩
  obtain ⟨_, -, keyed⟩ : ∃ seen, known document.securitySchemes connections seen := by
    refine buildConnections_holds known start ?_ built
    rintro done name node scheme connection connections seen ⟨connected, keyed⟩ inPlace made
    refine ⟨connected.concat fun _ => ⟨scheme, connection, inPlace, made, rfl⟩, ?_⟩
    refine keyed.concat connected.connects.length_eq name node ?_
    rw [← connected.given.used, ← key_connectionOf made]
  exact keyed

/--
Of a security scheme whose identifier is free, the connection has this identifier for its key if the
words of the identifier can be told apart. Otherwise it is renamed although nothing is in its way.
-/
theorem buildConnections_key_eq_iff {document : Document} {connections : List Connection}
    {log log' : Log} (built : (buildConnections document).run log = (.ok connections, log'))
    {i : Nat} {name : String} {node : Node SecurityScheme}
    (scheme : document.securitySchemes[i]? = some (name, node))
    (nonempty : Naming.cleanIdentifier name ≠ "")
    (unreserved : Naming.cleanIdentifier name ∉ reservedConnectionKeys)
    (unused : ∀ earlier ∈ connections.take i, earlier.key ≠ Naming.cleanIdentifier name) :
    ∃ connection, connections[i]? = some connection ∧
      (connection.key = Naming.cleanIdentifier name ↔
        Text.isHumped (Naming.cleanIdentifier name).toList = true) := by
  obtain ⟨connection, found, key⟩ := buildConnections_keyedInTurn built i name node scheme
  refine ⟨connection, found, ?_⟩
  have identifier := (Naming.cleanIdentifier_cases name).resolve_left nonempty
  have free : Naming.cleanIdentifier name ∉
      reservedConnectionKeys ++ (connections.take i).map Connection.key := by
    rw [List.mem_append, List.mem_map]
    rintro (reserved | ⟨earlier, member, same⟩)
    · exact unreserved reserved
    · exact unused earlier member same
  rw [key]
  exact Naming.uniqueIdentifier_eq_self_iff identifier (Naming.replacement?_cleanIdentifier name) free

example : Naming.cleanIdentifier "plan_a_b" = "planAB" ∧
    (Naming.uniqueIdentifier "planAB" reservedConnectionKeys).1 = "planAb" := by decide

/-! The blueprint. -/

theorem assemble_ok {document : Document} {fallback : Option String} {iconPath : String}
    {blueprint : Blueprint} {log log' : Log}
    (assembled : (assemble document fallback iconPath).run log = (.ok blueprint, log')) :
    (∃ before after, (buildActions document).run before = (.ok blueprint.actions, after)) ∧
      ∃ before after,
        (buildConnections document).run before = (.ok blueprint.connections, after) := by
  simp only [assemble, Logged.run_bind_eq_ok] at assembled
  obtain ⟨_, _, -, actions, _, first, connections, _, second, _, _, -, ⟨⟩⟩ := assembled
  exact ⟨⟨_, _, first⟩, _, _, second⟩

/-- A blueprint whose names suit the modules that are made from it. -/
structure WellNamed (blueprint : Blueprint) : Prop where
  actions : ∃ seen, Naming.Given reservedActionKeys (blueprint.actions.map Action.key) seen
  connections :
    ∃ seen, Naming.Given reservedConnectionKeys (blueprint.connections.map Connection.key) seen
  tags : ∀ action ∈ blueprint.actions, ∃ path, Naming.groupTag path = .ok action.groupTag

theorem wellNamed_assemble {document : Document} {fallback : Option String} {iconPath : String}
    {blueprint : Blueprint} {log log' : Log}
    (assembled : (assemble document fallback iconPath).run log = (.ok blueprint, log')) :
    WellNamed blueprint := by
  obtain ⟨⟨_, _, actions⟩, _, _, connections⟩ := assemble_ok assembled
  obtain ⟨seen, distinguished⟩ := buildActions_distinguished actions
  obtain ⟨_, connected⟩ := buildConnections_connected connections
  refine ⟨⟨seen, distinguished.given⟩, ⟨_, connected.given⟩, fun action member => ?_⟩
  obtain ⟨endpoint, -, tag, inputs, -, tagged, same⟩ :=
    exists_of_mem_right distinguished.performed member
  rw [same]
  exact ⟨endpoint.path, tagged⟩

end ApiCompiler.Derivation
