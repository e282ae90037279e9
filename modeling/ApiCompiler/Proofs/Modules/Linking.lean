import ApiCompiler.Location.FilePath
import ApiCompiler.Proofs.Modules.Rendering

/-!
Linking: the address of every file that a source file imports from leads to another file of the
component, and that exports what is asked for.
-/

namespace ApiCompiler.Modules

open Component Script ApiCompiler.Derivation

/-! Where addresses lead. -/

def isRelative (address : String) : Bool :=
  "./".toList.isPrefixOf address.toList || "../".toList.isPrefixOf address.toList

theorem isRelative_sdkModule : isRelative sdkModule = false := by decide

theorem isRelative_httpClientModule : isRelative httpClientModule = false := by decide

/-- The place that an address in a file names, without an extension. -/
def placeOf (path address : String) : String :=
  let folder := (FilePath.ofText path).parent
  String.intercalate "/" ((folder.join (FilePath.ofText address)).resolveFrom [])

/-- The artifact that an address leads to: a module at the place, or else the index of a folder there. -/
def resolveImport? (artifacts : Artifacts) (path address : String) : Option (String × String) :=
  [placeOf path address ++ ".ts", placeOf path address ++ "/index.ts"].findSome? fun target =>
    artifacts.find? fun artifact => artifact.1 = target

/-- What an import asks for is exported by the text of another artifact. -/
def Links (artifacts : Artifacts) (path : String) (i : Import) : Prop :=
  ∃ target text outline, resolveImport? artifacts path i.source = some (target, text) ∧
    target ≠ path ∧ outline? text = some outline ∧
    (i.main.isSome = true → outline.main.isSome = true) ∧
    ∀ name ∈ i.wantedNames, name ∈ outline.exportedNames

/-- Artifacts that are modules, all of whose imports from files lead to others among them. -/
def Linked (artifacts : Artifacts) : Prop :=
  ∀ artifact ∈ artifacts, ∃ outline, outline? artifact.2 = some outline ∧
    ∀ i ∈ outline.imports, isRelative i.source = true → Links artifacts artifact.1 i

theorem Links.sorted {artifacts : Artifacts} {path : String} {i : Import}
    (links : Links artifacts path i) : Links artifacts path i.sorted := by
  obtain ⟨target, text, outline, leads, other, read, main, names⟩ := links
  exact ⟨target, text, outline, leads, other, read, main, fun name wanted =>
    names name (Import.mem_wantedNames_sorted.mp wanted)⟩

section Resolution

variable {files : List SourceFile} {target : SourceFile}

theorem find?_path (distinct : (files.map SourceFile.path).Nodup) (member : target ∈ files) :
    (textsOf files).find? (fun artifact => artifact.1 = target.path) =
      some (target.path, target.render) := by
  have listed : (target.path, target.render) ∈ textsOf files := List.mem_map.mpr ⟨target, member, rfl⟩
  cases found : (textsOf files).find? fun artifact => artifact.1 = target.path with
  | none =>
      have other := List.find?_eq_none.mp found _ listed
      exact absurd (decide_eq_true rfl) other
  | some artifact =>
      have same : artifact.1 = target.path := by simpa using List.find?_some found
      obtain ⟨file, known, rfl⟩ := List.mem_map.mp (List.mem_of_find?_eq_some found)
      rw [List.inj_on_of_nodup_map distinct known member same]

theorem resolveImport?_file (distinct : (files.map SourceFile.path).Nodup) (member : target ∈ files)
    {path address : String} (leads : placeOf path address ++ ".ts" = target.path) :
    resolveImport? (textsOf files) path address = some (target.path, target.render) := by
  rw [resolveImport?, leads, List.findSome?_cons, find?_path distinct member]

theorem resolveImport?_folder (distinct : (files.map SourceFile.path).Nodup)
    (member : target ∈ files) {path address : String}
    (missing : placeOf path address ++ ".ts" ∉ files.map SourceFile.path)
    (leads : placeOf path address ++ "/index.ts" = target.path) :
    resolveImport? (textsOf files) path address = some (target.path, target.render) := by
  have none : (textsOf files).find? (fun artifact => artifact.1 = placeOf path address ++ ".ts") =
      none := by
    refine List.find?_eq_none.mpr fun artifact known same => missing ?_
    obtain ⟨file, inside, rfl⟩ := List.mem_map.mp known
    exact List.mem_map.mpr ⟨file, inside, by simpa using same⟩
  rw [resolveImport?, leads, List.findSome?_cons, none, List.findSome?_cons,
    find?_path distinct member]

theorem links_of_leads (distinct : (files.map SourceFile.path).Nodup) (member : target ∈ files)
    (readable : target.Readable) {path : String} {i : Import}
    (leads : placeOf path i.source ++ ".ts" = target.path) (other : target.path ≠ path)
    (main : i.main.isSome = true → target.defaultExport.isSome = true)
    (names : ∀ name ∈ i.wantedNames, name ∈ target.outline.exportedNames) :
    Links (textsOf files) path i :=
  ⟨target.path, target.render, target.outline, resolveImport?_file distinct member leads, other,
    readable.outline?_render, fun asked => by simpa [SourceFile.outline] using main asked, names⟩

theorem linked_textsOf (readable : ∀ file ∈ files, file.Readable)
    (links : ∀ file ∈ files, ∀ i ∈ file.imports.list, isRelative i.source = true →
      Links (textsOf files) file.path i) : Linked (textsOf files) := by
  intro artifact member
  obtain ⟨file, known, rfl⟩ := List.mem_map.mp member
  refine ⟨file.outline, (readable file known).outline?_render, fun i imported relative => ?_⟩
  obtain ⟨given, listed, rfl⟩ := List.mem_map.mp imported
  exact (links file known given listed relative).sorted

end Resolution

section Places

variable {tag : String}

theorem parent_groupPath (usable : Naming.IsTag tag) :
    (FilePath.ofText (groupPath tag)).parent = ⟨false, ["src", "actions"]⟩ := by
  have letters : (groupPath tag).toList =
      "src".toList ++ '/' :: ("actions".toList ++ '/' :: (tag.toList ++ ".ts".toList)) := by
    rw [toList_groupPath]
    simp
  have undivided : '/' ∉ tag.toList ++ ".ts".toList := by
    simpa using usable.not_mem (c := '/') (by decide)
  have parts : Text.splitAt '/' (groupPath tag).toList =
      ["src".toList, "actions".toList, tag.toList ++ ".ts".toList] := by
    rw [letters, Text.splitAt_append (by decide), Text.splitAt_append (by decide),
      Text.splitAt_of_not_mem undivided]
  have other : tag.toList ++ ['.', 't', 's'] ≠ ['.'] := fun same => by
    simpa using congrArg List.length same
  rw [FilePath.ofText, parts, letters]
  simp [FilePath.parent, other]

theorem ofText_tag (usable : Naming.IsTag tag) : FilePath.ofText ("./" ++ tag) = ⟨false, [tag]⟩ := by
  have letters : ("./" ++ tag).toList = ['.'] ++ '/' :: tag.toList := by simp
  have undivided : '/' ∉ tag.toList := usable.not_mem (by decide)
  have parts : Text.splitAt '/' ("./" ++ tag).toList = [['.'], tag.toList] := by
    rw [letters, Text.splitAt_append (by decide), Text.splitAt_of_not_mem undivided]
  have other : tag.toList ≠ ['.'] := fun same =>
    usable.not_mem (c := '.') (by decide) (by simp [same])
  rw [FilePath.ofText, parts, letters]
  simp [usable.some, other]

theorem placeOf_groupPath_client (usable : Naming.IsTag tag) :
    placeOf (groupPath tag) "../client" ++ ".ts" = clientPath := by
  rw [placeOf, parent_groupPath usable]
  decide

theorem placeOf_indexPath_tag (usable : Naming.IsTag tag) :
    placeOf indexPath ("./" ++ tag) ++ ".ts" = groupPath tag := by
  have folder : (FilePath.ofText indexPath).parent = ⟨false, ["src", "actions"]⟩ := by
    decide
  have forward : tag ≠ ".." := fun same =>
    usable.not_mem (c := '.') (by decide) (by simp [same])
  have place : (FilePath.join ⟨false, ["src", "actions"]⟩ ⟨false, [tag]⟩).resolveFrom [] =
      ["src", "actions", tag] := by
    simp [FilePath.join, FilePath.resolveFrom, FilePath.climb, forward]
  rw [placeOf, folder, ofText_tag usable, place]
  apply String.toList_inj.mp
  rw [toList_groupPath]
  simp [String.intercalate_cons_cons]

end Places

/-! What the modules export. -/

theorem exportedNames_connectionsModule (connections : List Connection) :
    (connectionsModule connections).outline.exportedNames = connections.map Connection.key := by
  simp [Outline.exportedNames, SourceFile.outline, connectionsModule, List.filter_map,
    Declaration.constant, Function.comp_def]

theorem exportedNames_clientModule (baseUrl : String) (connections : List Connection) :
    (clientModule baseUrl connections).outline.exportedNames = ["baseUrl", "createClient"] := rfl

/-! What the modules import. -/

section Imports

variable {blueprint : Blueprint} {key category : String}

/-- All imports of a file from files lead to others of the component. -/
def LinksAll (key : String) (blueprint : Blueprint) (category : String) (file : SourceFile) : Prop :=
  ∀ i ∈ file.imports.list, isRelative i.source = true →
    Links (textsOf (sourceFiles key blueprint category)) file.path i

theorem isTag_of_mem (named : WellNamed blueprint) :
    ∀ tag ∈ groupTags blueprint.actions, Naming.IsTag tag := by
  intro tag member
  obtain ⟨path, tagged⟩ := exists_path_of_mem named tag member
  exact Naming.isTag_groupTag tagged

theorem connectionsModule_links :
    LinksAll key blueprint category (connectionsModule blueprint.connections) := by
  intro i member relative
  rw [imports_connectionsModule] at member
  split at member
  · cases member
  · obtain rfl := List.mem_singleton.mp member
    cases isRelative_sdkModule.symm.trans relative

variable (readable : ∀ file ∈ sourceFiles key blueprint category, file.Readable)
include readable

theorem groupModule_links (named : WellNamed blueprint) {tag : String}
    (known : tag ∈ groupTags blueprint.actions) (actions : List Action) :
    LinksAll key blueprint category (groupModule tag actions) := by
  intro i member relative
  rw [imports_groupModule] at member
  rcases List.mem_cons.mp member with rfl | member
  · cases isRelative_sdkModule.symm.trans relative
  · obtain rfl := List.mem_singleton.mp member
    refine links_of_leads (nodup_paths named key category) clientModule_mem
      (readable _ clientModule_mem) (placeOf_groupPath_client (isTag_of_mem named tag known)) ?_
      nofun ?_
    · intro (same : clientPath = groupPath tag)
      have fixed : clientPath ∈ fixedPaths := by decide
      exact groupPath_not_mem_fixedPaths (groupTag_ne_index_of_mem named tag known) (same ▸ fixed)
    · rw [exportedNames_clientModule]
      decide

theorem indexModule_links (named : WellNamed blueprint) :
    LinksAll key blueprint category (indexModule (groupTags blueprint.actions)) := by
  intro i member relative
  have distinct := nodup_paths named key category
  rw [imports_indexModule (nodup_groupTags _)] at member
  rcases List.mem_cons.mp member with rfl | member
  · cases isRelative_httpClientModule.symm.trans relative
  rcases List.mem_cons.mp member with rfl | member
  · refine links_of_leads distinct clientModule_mem (readable _ clientModule_mem) ?_ ?_ nofun ?_
    · show placeOf indexPath "../client" ++ ".ts" = clientPath
      decide
    · show clientPath ≠ indexPath
      decide
    · rw [exportedNames_clientModule]
      decide
  · obtain ⟨tag, known, rfl⟩ := List.mem_map.mp member
    refine links_of_leads distinct (groupModule_mem known) (readable _ (groupModule_mem known))
      (placeOf_indexPath_tag (isTag_of_mem named tag known)) ?_ (fun _ => rfl) nofun
    intro (same : groupPath tag = indexPath)
    have fixed : indexPath ∈ fixedPaths := by decide
    exact groupPath_not_mem_fixedPaths (groupTag_ne_index_of_mem named tag known) (same ▸ fixed)

theorem clientModule_links (named : WellNamed blueprint) :
    LinksAll key blueprint category (clientModule blueprint.baseUrl blueprint.connections) := by
  intro i member relative
  obtain ⟨seen, given⟩ := named.connections
  rw [imports_clientModule _ given.distinct] at member
  rcases List.mem_append.mp member with fixed | added
  · rcases List.mem_cons.mp fixed with rfl | member
    · cases isRelative_sdkModule.symm.trans relative
    · obtain rfl := List.mem_singleton.mp member
      cases isRelative_httpClientModule.symm.trans relative
  · split at added
    · cases added
    · obtain rfl := List.mem_singleton.mp added
      refine links_of_leads (nodup_paths named key category) connectionsModule_mem
        (readable _ connectionsModule_mem) ?_ ?_ nofun ?_
      · show placeOf clientPath "./connections" ++ ".ts" = connectionsPath
        decide
      · show connectionsPath ≠ clientPath
        decide
      · rw [exportedNames_connectionsModule, Import.wantedNames_of_isIdentifier given.identifiers]
        exact fun _ member => member

theorem manifestModule_links (named : WellNamed blueprint) :
    LinksAll key blueprint category (manifestModule key blueprint.profile category) := by
  intro i member relative
  have distinct := nodup_paths named key category
  rw [imports_manifestModule] at member
  rcases List.mem_cons.mp member with rfl | member
  · cases isRelative_sdkModule.symm.trans relative
  rcases List.mem_cons.mp member with rfl | member
  · cases isRelative_httpClientModule.symm.trans relative
  rcases List.mem_cons.mp member with rfl | member
  · -- There is no module of this name beside the folder.
    have missing : placeOf manifestPath "./actions" ++ ".ts" ∉
        (sourceFiles key blueprint category).map SourceFile.path := by
      intro inside
      rcases List.mem_append.mp ((paths_sourceFiles key blueprint category).mem_iff.mp inside) with
        fixed | group
      · exact absurd fixed (by decide)
      · obtain ⟨tag, -, same⟩ := List.mem_map.mp group
        exact absurd (same ▸ prefix_groupPath tag) (by decide)
    refine ⟨_, _, _, resolveImport?_folder distinct indexModule_mem missing ?_, ?_,
      (readable _ indexModule_mem).outline?_render, fun _ => rfl, nofun⟩
    · show placeOf manifestPath "./actions" ++ "/index.ts" = indexPath
      decide
    · show indexPath ≠ manifestPath
      decide
  · obtain rfl := List.mem_singleton.mp member
    refine links_of_leads distinct connectionsModule_mem (readable _ connectionsModule_mem) ?_ ?_
      (fun _ => rfl) nofun
    · show placeOf manifestPath "./connections" ++ ".ts" = connectionsPath
      decide
    · show connectionsPath ≠ manifestPath
      decide

theorem linked_sourceFiles (named : WellNamed blueprint) :
    Linked (artifactsOf (sourceFiles key blueprint category)) := by
  rw [artifactsOf_sourceFiles named]
  refine linked_textsOf readable fun file member => ?_
  rcases mem_sourceFiles.mp member with rfl | ⟨tag, known, rfl⟩ | rfl | rfl | rfl
  · exact connectionsModule_links
  · exact groupModule_links readable named known _
  · exact indexModule_links readable named
  · exact clientModule_links readable named
  · exact manifestModule_links readable named

end Imports

/-! The keys of connections. -/

section Keys

variable {connections ordered : List Connection}

/-- The same connections by ascending priority, those of one priority in the same order. -/
structure Ordered (connections ordered : List Connection) : Prop where
  perm : ordered.Perm connections
  ascending : ordered.Pairwise fun first second => first.priority ≤ second.priority
  stable : ∀ priority, ordered.filter (fun c => c.priority = priority) =
    connections.filter fun c => c.priority = priority

theorem ordered_byPriority (connections : List Connection) :
    Ordered connections (byPriority connections) := by
  let before (first second : Connection) : Bool := first.priority ≤ second.priority
  have trans : ∀ a b c, before a b = true → before b c = true → before a c = true := by
    simp only [before, decide_eq_true_eq]
    exact fun _ _ _ => Nat.le_trans
  have total : ∀ a b, (before a b || before b a) = true := by
    simpa [before] using fun a b : Connection => Nat.le_total a.priority b.priority
  have perm : (byPriority connections).Perm connections := List.mergeSort_perm connections before
  have sorted := List.pairwise_mergeSort trans total connections
  refine ⟨perm, sorted.imp fun le => by simpa [before] using le, fun priority => ?_⟩
  -- Those of one priority are in order, so the sort keeps them as they are.
  have equal : (connections.filter fun c => c.priority = priority).Pairwise fun first second =>
      before first second = true := by
    refine List.pairwise_of_forall_mem_list fun first early second late => ?_
    have one : first.priority = priority := by simpa using (List.mem_filter.mp early).2
    have other : second.priority = priority := by simpa using (List.mem_filter.mp late).2
    simp [before, one, other]
  have kept := (List.sublist_mergeSort trans total equal List.filter_sublist).filter
    fun c => c.priority = priority
  rw [List.filter_filter] at kept
  simp only [Bool.and_self] at kept
  exact (kept.eq_of_length (perm.filter _).length_eq.symm).symm

/-- The modules of connections and of the client agree on one list of different keys. -/
structure SharesKeys (connections : List Connection) (own client : Outline) : Prop where
  distinct : (connections.map Connection.key).Nodup
  exported : own.exportedNames.Perm (connections.map Connection.key)
  imported : (client.namesFrom "./connections").Perm (connections.map Connection.key)
  known : (client.entriesOf "connectionKeys").Perm
    ((connections.map Connection.key).map fun key => key ++ ".key")
  offered : ∃ ordered, Ordered connections ordered ∧
    own.mainEntries = ordered.map Connection.key

variable {seen : List String}

theorem namesFrom_clientModule (baseUrl : String)
    (given : Naming.Given reservedConnectionKeys (connections.map Connection.key) seen) :
    ((clientModule baseUrl connections).outline.namesFrom "./connections").Perm
      (connections.map Connection.key) := by
  have library : ([({ source := sdkModule, names := ["Connection", "ConnectionError", "util"] } :
        Import),
      { source := httpClientModule,
        names := ["HttpClient", "createClient as createHttpClient"] }].map Import.sorted).filter
      (fun i => i.source = "./connections") = [] := by
    simp [Import.sorted, sdkModule, httpClientModule]
  rw [Outline.namesFrom, SourceFile.outline, imports_clientModule baseUrl given.distinct,
    List.map_append, List.filter_append, library, List.nil_append]
  split
  · rename_i none
    rw [none]
    exact .nil
  · have sorted := List.mergeSort_perm (connections.map Connection.key) fun a b => a ≤ b
    rw [List.map_singleton, List.filter_cons_of_pos (by simp [Import.sorted]), List.filter_nil,
      List.flatMap_singleton, Import.wantedNames_of_isIdentifier]
    · exact sorted
    · exact fun name member => given.identifiers name (sorted.mem_iff.mp member)

theorem entriesOf_clientModule (baseUrl : String)
    (given : Naming.Given reservedConnectionKeys (connections.map Connection.key) seen) :
    (clientModule baseUrl connections).outline.entriesOf "connectionKeys" =
      (connections.map Connection.key).map fun key => key ++ ".key" := by
  have entry : ∀ text ∈ (connections.map Connection.key).map (fun key => key ++ ".key"),
      IsEntry text.toList := by
    intro text member
    obtain ⟨key, listed, rfl⟩ := List.mem_map.mp member
    rw [String.toList_append]
    exact (isEntry_of_isIdentifier (given.identifiers key listed)).append
      ⟨by decide, ⟨by simp [Text.isBlank], by simp [Text.isBlank]⟩, by decide⟩
  have found : (clientModule baseUrl connections).outline.constants.find?
        (fun c => c.name = "connectionKeys") =
      some ⟨"connectionKeys", false,
        listLiteral ((connections.map Connection.key).map (· ++ ".key"))⟩ := by
    rw [SourceFile.outline, clientModule, List.map_cons,
      List.find?_cons_of_neg (by simp [Declaration.constant]), List.map_cons,
      List.find?_cons_of_pos (by simp [Declaration.constant])]
    rfl
  rw [Outline.entriesOf, found, Option.map_some, Option.getD_some]
  exact entries_listLiteral entry

theorem mainEntries_connectionsModule
    (given : Naming.Given reservedConnectionKeys (connections.map Connection.key) seen) :
    (connectionsModule connections).outline.mainEntries =
      (byPriority connections).map Connection.key := by
  have exported : (connectionsModule connections).outline.main =
      some (listLiteral ((byPriority connections).map Connection.key)) := rfl
  rw [Outline.mainEntries, exported, Option.map_some, Option.getD_some]
  refine entries_listLiteral fun key member => ?_
  have listed := ((ordered_byPriority connections).perm.map Connection.key).mem_iff.mp member
  exact isEntry_of_isIdentifier (given.identifiers key listed)

theorem sharesKeys_modules (baseUrl : String)
    (given : Naming.Given reservedConnectionKeys (connections.map Connection.key) seen) :
    SharesKeys connections (connectionsModule connections).outline
      (clientModule baseUrl connections).outline where
  distinct := given.distinct
  exported := .of_eq (exportedNames_connectionsModule connections)
  imported := namesFrom_clientModule baseUrl given
  known := .of_eq (entriesOf_clientModule baseUrl given)
  offered := ⟨_, ordered_byPriority connections, mainEntries_connectionsModule given⟩

end Keys

/--
The rendered modules link: every import from a file leads to another artifact, whose text exports what
is asked for; and the keys of the connections, which are the document's security schemes in order, are
the same wherever they are listed, the list on offer being sorted by priority.
-/
theorem sourceFiles_link {document : Openapi.Document} {fallback : Option String}
    {iconPath : String} {blueprint : Blueprint} {log log' : Log}
    (assembled : (assemble document fallback iconPath).run log = (.ok blueprint, log'))
    (key category : String) (before : Log) :
    ∃ artifacts after, (render key blueprint category).run before = (.ok artifacts, after) ∧
      Linked artifacts ∧
      List.Forall₂ Connects document.securitySchemes blueprint.connections ∧
      ∃ ownText clientText own client, (connectionsPath, ownText) ∈ artifacts ∧
        (clientPath, clientText) ∈ artifacts ∧ outline? ownText = some own ∧
        outline? clientText = some client ∧ SharesKeys blueprint.connections own client := by
  have named := wellNamed_assemble assembled
  have readable := readable_sourceFiles assembled key category
  obtain ⟨-, _, _, built⟩ := assemble_ok assembled
  obtain ⟨seen, connected⟩ := buildConnections_connected built
  obtain ⟨after, rendered⟩ := render_eq key blueprint category before
  have texts {file : SourceFile} (member : file ∈ sourceFiles key blueprint category) :
      (file.path, file.render) ∈ artifactsOf (sourceFiles key blueprint category) := by
    rw [artifactsOf_sourceFiles named]
    exact List.mem_map.mpr ⟨file, member, rfl⟩
  exact ⟨_, after, rendered, linked_sourceFiles readable named, connected.connects, _, _, _, _,
    texts connectionsModule_mem, texts clientModule_mem,
    (readable _ connectionsModule_mem).outline?_render,
    (readable _ clientModule_mem).outline?_render,
    sharesKeys_modules blueprint.baseUrl connected.given⟩

theorem sourceFiles_link_shop :
    ∃ blueprint log artifacts after ownText clientText own client,
      (assemble shopDocument none Profile.standardIcon).run #[] = (.ok blueprint, log) ∧
      (render "shop" blueprint standardCategory).run #[] = (.ok artifacts, after) ∧
      Linked artifacts ∧
      blueprint.connections.map Connection.key = ["otherBaseUrl", "otherOtherBaseUrl"] ∧
      (connectionsPath, ownText) ∈ artifacts ∧ (clientPath, clientText) ∈ artifacts ∧
      outline? ownText = some own ∧ outline? clientText = some client ∧
      SharesKeys blueprint.connections own client := by
  obtain ⟨blueprint, log, assembled, -, keys⟩ := assemble_shop
  obtain ⟨artifacts, after, rendered, linked, -, ownText, clientText, own, client, ownIn, clientIn,
    ownRead, clientRead, shared⟩ := sourceFiles_link assembled "shop" standardCategory #[]
  exact ⟨blueprint, log, artifacts, after, ownText, clientText, own, client, assembled, rendered,
    linked, keys, ownIn, clientIn, ownRead, clientRead, shared⟩

end ApiCompiler.Modules
