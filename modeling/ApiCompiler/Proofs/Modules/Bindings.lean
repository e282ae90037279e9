import ApiCompiler.Proofs.Derivation.ConnectionKeys
import ApiCompiler.Proofs.Derivation.Failures
import ApiCompiler.Proofs.Modules.Groups
import ApiCompiler.Proofs.Modules.Requirements

/-!
Names at the top of the generated modules: none is bound twice, whatever actions and connections
are called.
-/

namespace ApiCompiler.Modules

open Component Script ApiCompiler.Derivation

/--
A file that binds some fixed names and, besides, keys given in view of reserved names. Every fixed
name is reserved, or begins like no key.
-/
theorem bindsOnce_of_given {file : SourceFile} {reserved fixed keys seen : List String}
    (given : Naming.Given reserved keys seen) (shown : file.boundNames.Perm (fixed ++ keys))
    (distinct : fixed.Nodup) (bindable : ∀ name ∈ fixed, isBindable name = true)
    (kept : ∀ name ∈ fixed, name ∈ reserved ∨ Naming.isIdentifier name.toList = false) :
    file.BindsOnce := by
  constructor
  · rw [shown.nodup_iff, List.nodup_append]
    refine ⟨distinct, given.distinct, ?_⟩
    rintro name known key member rfl
    rcases kept name known with taken | other
    · exact given.unused name member taken
    · exact Bool.false_ne_true (other.symm.trans (given.identifiers name member))
  · intro name member
    rcases List.mem_append.mp (shown.mem_iff.mp member) with known | key
    · exact bindable name known
    · exact isBindable_of_isIdentifier (given.identifiers name key)
        (given.not_mem_replacements name key)

/-! Modules of actions. -/

def groupNames : List String := ["action", "util", "createClient"]

theorem boundNames_groupModule (tag : String) (actions : List Action) :
    (groupModule tag actions).boundNames = groupNames ++ actions.map Action.key := by
  have imported : (groupModule tag actions).imports.list.flatMap Import.boundNames =
      groupNames := by
    rw [imports_groupModule]
    decide
  have declared : (groupModule tag actions).declarations.map Declaration.name =
      actions.map Action.key := by
    simp [groupModule, Function.comp_def]
  rw [SourceFile.boundNames, imported, declared]

theorem bindsOnce_groupModule {actions : List Action} {seen : List String}
    (given : Naming.Given reservedActionKeys (actions.map Action.key) seen) (tag : String) :
    (groupModule tag (taggedWith tag actions)).BindsOnce := by
  have chosen : (taggedWith tag actions).Sublist actions := List.filter_sublist
  have shown := boundNames_groupModule tag (taggedWith tag actions)
  refine bindsOnce_of_given (given.sublist (chosen.map Action.key)) (.of_eq shown) ?_ ?_ ?_
  · decide
  · decide
  · decide

/-! The module of connections. -/

theorem boundNames_connectionsModule (connections : List Connection) :
    (connectionsModule connections).boundNames =
      connectionMakers connections ++ connections.map Connection.key := by
  have plain : (connectionMakers connections).map (fun text => (specifier text).2) =
      connectionMakers connections := by
    rw [connectionMakers]
    split <;> split <;> decide
  have imported : (connectionsModule connections).imports.list.flatMap Import.boundNames =
      connectionMakers connections := by
    rw [imports_connectionsModule]
    split
    · rename_i none
      exact none.symm
    · simpa [Import.boundNames] using plain
  have declared : (connectionsModule connections).declarations.map Declaration.name =
      connections.map Connection.key := by
    simp [connectionsModule, Function.comp_def]
  rw [SourceFile.boundNames, imported, declared]

theorem connectionMakers_sublist (connections : List Connection) :
    (connectionMakers connections).Sublist ["connection", "oauth2Connection", "OAuth2Type"] := by
  rw [connectionMakers]
  split <;> split <;> decide

theorem bindsOnce_connectionsModule {connections : List Connection} {seen : List String}
    (given : Naming.Given reservedConnectionKeys (connections.map Connection.key) seen) :
    (connectionsModule connections).BindsOnce := by
  have makers := connectionMakers_sublist connections
  have bindable : ∀ name ∈ ["connection", "oauth2Connection", "OAuth2Type"],
      isBindable name = true := by decide
  have kept : ∀ name ∈ ["connection", "oauth2Connection", "OAuth2Type"],
      name ∈ reservedConnectionKeys ∨ Naming.isIdentifier name.toList = false := by decide
  refine bindsOnce_of_given given (.of_eq (boundNames_connectionsModule connections)) ?_ ?_ ?_
  · exact makers.nodup (by decide)
  · exact fun name member => bindable name (makers.subset member)
  · exact fun name member => kept name (makers.subset member)

/-! The module of the client. -/

def clientNames : List String :=
  ["Connection", "ConnectionError", "util", "HttpClient", "createHttpClient", "baseUrl",
    "connectionKeys", "toAuthorizationHeaders", "createClient"]

section Client

variable {connections : List Connection} {seen : List String}

theorem boundNames_clientModule (baseUrl : String)
    (given : Naming.Given reservedConnectionKeys (connections.map Connection.key) seen) :
    (clientModule baseUrl connections).boundNames.Perm
      (clientNames ++ connections.map Connection.key) := by
  have imported : (clientModule baseUrl connections).imports.list.flatMap Import.boundNames =
      clientNames.take 5 ++ connections.map Connection.key := by
    rw [imports_clientModule baseUrl given.distinct, List.flatMap_append]
    congr 1
    split
    · rename_i none
      rw [none]
      rfl
    · rw [List.flatMap_singleton, Import.boundNames_of_isIdentifier given.identifiers]
      rfl
  have declared : (clientModule baseUrl connections).declarations.map Declaration.name =
      clientNames.drop 5 := rfl
  rw [SourceFile.boundNames, imported, declared]
  have swapped : (connections.map Connection.key ++ clientNames.drop 5).Perm
      (clientNames.drop 5 ++ connections.map Connection.key) := List.perm_append_comm
  rw [List.append_assoc]
  exact (swapped.append_left _).trans (.of_eq (by rw [← List.append_assoc, List.take_append_drop]))

theorem bindsOnce_clientModule (baseUrl : String)
    (given : Naming.Given reservedConnectionKeys (connections.map Connection.key) seen) :
    (clientModule baseUrl connections).BindsOnce := by
  refine bindsOnce_of_given given (boundNames_clientModule baseUrl given) ?_ ?_ ?_
  · decide
  · decide
  · decide

end Client

/-! All modules. -/

theorem bindsOnce_manifestModule (key : String) (profile : Profile) (category : String) :
    (manifestModule key profile category).BindsOnce := by
  have shown : (manifestModule key profile category).boundNames =
      ["component", "handleErrors", "actions", "connections"] := by
    have undeclared : (manifestModule key profile category).declarations = [] := rfl
    rw [SourceFile.boundNames, imports_manifestModule, undeclared]
    decide
  constructor <;> rw [shown] <;> decide

/--
Every module of actions, the modules of connections and of the client and the manifest bind
different names that the language allows: all files of a component except the index of its actions.
-/
theorem sourceFiles_bind_once {document : Openapi.Document} {fallback : Option String}
    {iconPath : String} {blueprint : Blueprint} {log log' : Log}
    (assembled : (assemble document fallback iconPath).run log = (.ok blueprint, log'))
    (key category : String) :
    ∀ file ∈ sourceFiles key blueprint category,
      file ≠ indexModule (groupTags blueprint.actions) → file.BindsOnce := by
  obtain ⟨⟨_, actions⟩, ⟨_, connections⟩, -⟩ := wellNamed_assemble assembled
  intro file member other
  rcases mem_sourceFiles.mp member with rfl | ⟨tag, -, rfl⟩ | same | rfl | rfl
  · exact bindsOnce_connectionsModule connections
  · exact bindsOnce_groupModule actions tag
  · exact absurd same other
  · exact bindsOnce_clientModule _ connections
  · exact bindsOnce_manifestModule _ _ _

def httpScheme (scheme : String) : Openapi.SecurityScheme :=
  { type := "http"
    description := .absent
    name := .absent
    place := .absent
    scheme := .given scheme
    bearerFormat := .absent
    flows := .absent
    openIdConnectUrl := .absent
    extras := [] }

/-- Two paths with a tag each, and two schemes, all named like what the modules bind already. -/
def shopDocument : Openapi.Document :=
  { openapi := "3.0.0"
    info := ⟨"Shop", .absent, none, []⟩
    servers := none
    paths := some [("/orders", twinItem "createClient"), ("/index", twinItem "createClient")]
    components := .given
      ⟨some [("base url", .inline (httpScheme "basic")), ("baseUrl", .inline (httpScheme "bearer"))],
        []⟩
    basePath := .given "https://shop.example"
    extras := [] }

theorem assemble_shop :
    ∃ blueprint log, (assemble shopDocument none Profile.standardIcon).run #[] =
        (.ok blueprint, log) ∧
      groupTags blueprint.actions = ["orders", "indexGroup"] ∧
      blueprint.connections.map Connection.key = ["otherBaseUrl", "otherOtherBaseUrl"] := by
  have computed : ((assemble shopDocument none Profile.standardIcon).run #[]).1.toOption.map
      (fun blueprint =>
        (groupTags blueprint.actions, blueprint.connections.map Connection.key)) =
      some (["orders", "indexGroup"], ["otherBaseUrl", "otherOtherBaseUrl"]) := by decide +kernel
  rcases ran : (assemble shopDocument none Profile.standardIcon).run #[] with ⟨result, log⟩
  rw [ran] at computed
  match result with
  | .error problem => cases computed
  | .ok blueprint =>
      obtain ⟨tags, keys⟩ := Prod.mk.inj (Option.some.inj computed)
      exact ⟨blueprint, log, rfl, tags, keys⟩

theorem sourceFiles_bind_once_shop :
    ∃ blueprint log, (assemble shopDocument none Profile.standardIcon).run #[] =
        (.ok blueprint, log) ∧
      groupTags blueprint.actions = ["orders", "indexGroup"] ∧
      ∀ file ∈ sourceFiles "shop" blueprint standardCategory,
        file ≠ indexModule (groupTags blueprint.actions) → file.BindsOnce := by
  obtain ⟨blueprint, log, assembled, tags, -⟩ := assemble_shop
  exact ⟨blueprint, log, assembled, tags,
    sourceFiles_bind_once assembled "shop" standardCategory⟩

end ApiCompiler.Modules
