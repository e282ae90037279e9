import ApiCompiler.Modules.Artifacts
import ApiCompiler.Proofs.Naming.GroupTag
import ApiCompiler.Proofs.Script.Surface

/-!
What the generated modules import.
-/

namespace ApiCompiler.Modules

open Component Script

theorem imports_groupModule (tag : String) (actions : List Action) :
    (groupModule tag actions).imports.list =
      [{ source := sdkModule, names := ["action", "util"] },
        { source := "../client", names := ["createClient"] }] := by
  show ((Imports.addNamed sdkModule ["action", "util"] {}).addNamed "../client"
    ["createClient"]).list = _
  decide

theorem imports_manifestModule (key : String) (profile : Profile) (category : String) :
    (manifestModule key profile category).imports.list =
      [{ source := sdkModule, names := ["component"] },
        { source := httpClientModule, names := ["handleErrors"] },
        { source := "./actions", main := some "actions" },
        { source := "./connections", main := some "connections" }] := by
  show ((((Imports.addNamed sdkModule ["component"] {}).addNamed
    httpClientModule ["handleErrors"]).addDefault "./actions" "actions").addDefault
    "./connections" "connections").list = _
  decide

/-- What the constants of a module of connections are made with. -/
def connectionMakers (connections : List Connection) : List String :=
  (if connections.any (·.grant.isNone) then ["connection"] else []) ++
    if connections.any (·.grant.isSome) then ["oauth2Connection", "OAuth2Type"] else []

theorem imports_connectionsModule (connections : List Connection) :
    (connectionsModule connections).imports.list =
      if connectionMakers connections = [] then []
      else [{ source := sdkModule, names := connectionMakers connections }] := by
  show ((Imports.addNamed sdkModule
      (if connections.any (·.grant.isNone) then ["connection"] else []) {}).addNamed sdkModule
    (if connections.any (·.grant.isSome) then ["oauth2Connection", "OAuth2Type"] else [])).list = _
  rw [connectionMakers]
  split <;> split <;> decide

theorem imports_clientModule (baseUrl : String) {connections : List Connection}
    (distinct : (connections.map Connection.key).Nodup) :
    (clientModule baseUrl connections).imports.list =
      [{ source := sdkModule, names := ["Connection", "ConnectionError", "util"] },
        { source := httpClientModule,
          names := ["HttpClient", "createClient as createHttpClient"] }] ++
      if connections.map Connection.key = [] then []
      else [{ source := "./connections", names := connections.map Connection.key }] := by
  have fixed : ((Imports.addNamed sdkModule ["Connection", "ConnectionError", "util"] {}).addNamed
      httpClientModule ["HttpClient", "createClient as createHttpClient"]).list =
      [{ source := sdkModule, names := ["Connection", "ConnectionError", "util"] },
        { source := httpClientModule,
          names := ["HttpClient", "createClient as createHttpClient"] }] := by decide
  have new : "./connections" ∉ ((Imports.addNamed sdkModule
      ["Connection", "ConnectionError", "util"] {}).addNamed
      httpClientModule ["HttpClient", "createClient as createHttpClient"]).list.map
        Import.source := by
    rw [fixed]
    decide
  have added := Imports.addNamed_of_not_mem new distinct
  rw [fixed] at added
  exact congrArg Imports.list added

/-- Default exports of different modules, none of which anything was imported from before. -/
theorem list_foldl_addDefault {sourceOf nameOf : String → String} {tags : List String}
    {imports : Imports}
    (distinct : (imports.list.map Import.source ++ tags.map sourceOf).Nodup) :
    (tags.foldl (fun imports tag => imports.addDefault (sourceOf tag) (nameOf tag)) imports).list =
      imports.list ++ tags.map fun tag => { source := sourceOf tag, main := some (nameOf tag) } := by
  induction tags generalizing imports with
  | nil => simp
  | cons tag tags ih =>
      have new : sourceOf tag ∉ imports.list.map Import.source := by
        intro inside
        exact (List.nodup_append.mp distinct).2.2 _ inside _ (by simp) rfl
      rw [List.foldl_cons, Imports.addDefault_of_not_mem _ new, ih (by simpa using distinct)]
      simp

theorem imports_indexModule {tags : List String} (distinct : tags.Nodup) :
    (indexModule tags).imports.list =
      [{ source := httpClientModule, names := ["buildRawRequestAction"] },
        { source := "../client", names := ["baseUrl"] }] ++
      tags.map fun tag => { source := "./" ++ tag, main := some (importName tag) } := by
  have fixed : ((Imports.addNamed httpClientModule ["buildRawRequestAction"] {}).addNamed
      "../client" ["baseUrl"]).list =
      [{ source := httpClientModule, names := ["buildRawRequestAction"] },
        { source := "../client", names := ["baseUrl"] }] := by decide
  have here (tag : String) : ("./" ++ tag).toList = '.' :: '/' :: tag.toList := by simp
  have apart : (((Imports.addNamed httpClientModule ["buildRawRequestAction"] {}).addNamed
      "../client" ["baseUrl"]).list.map Import.source ++ tags.map ("./" ++ ·)).Nodup := by
    refine List.nodup_append.mpr ⟨by rw [fixed]; decide, ?_, ?_⟩
    · refine distinct.map fun first second same => String.toList_inj.mp ?_
      simpa [here] using congrArg String.toList same
    · rw [fixed]
      intro source known other added
      obtain ⟨tag, -, rfl⟩ := List.mem_map.mp added
      intro same
      have letters := (congrArg String.toList same).trans (here tag)
      rcases List.mem_cons.mp known with rfl | later
      · exact absurd (congrArg List.head? letters) (by simp [httpClientModule])
      · rw [List.map_singleton, List.mem_singleton] at later
        subst later
        simp at letters
  rw [indexModule, list_foldl_addDefault apart, fixed]

end ApiCompiler.Modules
