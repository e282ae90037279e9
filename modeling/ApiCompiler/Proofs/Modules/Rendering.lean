import ApiCompiler.Proofs.Modules.Bindings
import ApiCompiler.Proofs.Modules.Readable

/-!
Rendering: every source file of a component has a path of its own, so that none overwrites another,
and every action stands in one of them, once.
-/

namespace ApiCompiler.Modules

open Component Script ApiCompiler.Derivation

/-! Paths. -/

def indexPath : String := actionsFolder ++ "/index.ts"

def groupPath (tag : String) : String := actionsFolder ++ "/" ++ tag ++ ".ts"

def fixedPaths : List String := [connectionsPath, indexPath, clientPath, manifestPath]

theorem toList_groupPath (tag : String) :
    (groupPath tag).toList = "src/actions/".toList ++ tag.toList ++ ".ts".toList := by
  simp [groupPath, actionsFolder]

theorem prefix_groupPath (tag : String) : "src/actions/".toList <+: (groupPath tag).toList := by
  rw [toList_groupPath, List.append_assoc]
  exact List.prefix_append _ _

theorem groupPath_injective : Function.Injective groupPath := by
  intro first second same
  have letters := congrArg String.toList same
  rw [toList_groupPath, toList_groupPath, List.append_assoc, List.append_assoc] at letters
  exact String.toList_inj.mp (List.append_cancel_right (List.append_cancel_left letters))

theorem groupPath_not_mem_fixedPaths {tag : String} (free : tag ≠ "index") :
    groupPath tag ∉ fixedPaths := by
  have index : indexPath = groupPath "index" := by decide
  have outside : ∀ path ∈ [connectionsPath, clientPath, manifestPath],
      ¬ "src/actions/".toList <+: path.toList := by decide
  intro fixed
  rw [fixedPaths, List.mem_cons, List.mem_cons] at fixed
  rcases fixed with same | same | later
  · exact outside connectionsPath (by simp) (same ▸ prefix_groupPath tag)
  · exact free (groupPath_injective (same.trans index))
  · exact outside _ (List.mem_cons_of_mem _ later) (prefix_groupPath tag)

section Files

variable {key category : String} {blueprint : Blueprint}

theorem paths_sourceFiles (key : String) (blueprint : Blueprint) (category : String) :
    ((sourceFiles key blueprint category).map SourceFile.path).Perm
      (fixedPaths ++ (groupTags blueprint.actions).map groupPath) := by
  have paths : (sourceFiles key blueprint category).map SourceFile.path =
      connectionsPath :: ((groupTags blueprint.actions).map groupPath ++ fixedPaths.tail) := by
    rw [sourceFiles_eq]
    simp [Function.comp_def, fixedPaths, indexPath, indexModule, clientModule, connectionsModule,
      manifestModule, groupModule, groupPath]
  rw [paths]
  exact .cons _ List.perm_append_comm

theorem exists_path_of_mem (named : WellNamed blueprint) :
    ∀ tag ∈ groupTags blueprint.actions, ∃ path, Naming.groupTag path = .ok tag := by
  intro tag member
  obtain ⟨action, known, rfl⟩ := mem_groupTags.mp member
  exact named.tags action known

theorem groupTag_ne_index_of_mem (named : WellNamed blueprint) :
    ∀ tag ∈ groupTags blueprint.actions, tag ≠ "index" := by
  intro tag member
  obtain ⟨path, tagged⟩ := exists_path_of_mem named tag member
  exact Naming.groupTag_ne_index tagged

theorem nodup_paths (named : WellNamed blueprint) (key category : String) :
    ((sourceFiles key blueprint category).map SourceFile.path).Nodup := by
  rw [(paths_sourceFiles key blueprint category).nodup_iff, List.nodup_append]
  refine ⟨by decide, (nodup_groupTags _).map groupPath_injective, ?_⟩
  rintro path fixed other tagged rfl
  obtain ⟨tag, member, same⟩ := List.mem_map.mp tagged
  exact groupPath_not_mem_fixedPaths (groupTag_ne_index_of_mem named tag member) (same ▸ fixed)

/-- Files as artifacts, each under its path. -/
def textsOf (files : List SourceFile) : Artifacts :=
  files.map fun file => (file.path, file.render)

theorem artifactsOf_sourceFiles (named : WellNamed blueprint) (key category : String) :
    artifactsOf (sourceFiles key blueprint category) =
      textsOf (sourceFiles key blueprint category) := by
  refine Named.ofList_of_nodup ?_
  simpa [Function.comp_def] using nodup_paths named key category

theorem render_eq (key : String) (blueprint : Blueprint) (category : String) (log : Log) :
    ∃ log', (render key blueprint category).run log =
      (.ok (artifactsOf (sourceFiles key blueprint category)), log') := by
  simp only [render]
  exact ⟨_, rfl⟩

end Files

/-! Actions. -/

/-- An action as a constant that is not exported by itself. -/
def constantOf (action : Action) : Constant :=
  ⟨action.key, false, layout [actionSteps action]⟩

/-- A module that declares the actions with a tag, in their order, and exports them all. -/
structure IsGroup (tag : String) (actions : List Action) (outline : Outline) : Prop where
  declared : outline.constants = (taggedWith tag actions).map constantOf
  exported : outline.mainEntries = (taggedWith tag actions).map Action.key

theorem isEntry_of_isIdentifier {name : String}
    (identifier : Naming.isIdentifier name.toList = true) : IsEntry name.toList :=
  isEntry_of_isName (isName_of_isIdentifier identifier)

theorem isGroup_groupModule {actions : List Action} {seen : List String}
    (given : Naming.Given reservedActionKeys (actions.map Action.key) seen) (tag : String) :
    IsGroup tag actions (groupModule tag (taggedWith tag actions)).outline := by
  have declared : (groupModule tag (taggedWith tag actions)).outline.constants =
      (taggedWith tag actions).map constantOf := List.map_map
  refine ⟨declared, ?_⟩
  have entry : ∀ key ∈ (taggedWith tag actions).map Action.key, IsEntry key.toList := by
    intro key member
    obtain ⟨action, chosen, rfl⟩ := List.mem_map.mp member
    have known := List.mem_map_of_mem (f := Action.key) (List.mem_filter.mp chosen).1
    exact isEntry_of_isIdentifier (given.identifiers _ known)
  rw [Outline.mainEntries, SourceFile.outline, defaultExport_groupModule, Option.map_some,
    Option.map_some, Option.getD_some, Expression.render]
  exact entries_layout_object entry

/-- The artifacts that not every component has. -/
def groupArtifacts (artifacts : Artifacts) : Artifacts :=
  artifacts.filter fun artifact => !fixedPaths.contains artifact.1

/-- The constants that the text of an artifact declares. -/
def constantsOf (artifact : String × String) : List Constant :=
  ((outline? artifact.2).map Outline.constants).getD []

theorem groupArtifacts_sourceFiles {blueprint : Blueprint} (named : WellNamed blueprint)
    (key category : String) :
    groupArtifacts (artifactsOf (sourceFiles key blueprint category)) =
      (groupTags blueprint.actions).map fun tag =>
        (groupPath tag, (groupModule tag (taggedWith tag blueprint.actions)).render) := by
  let isGroup (file : SourceFile) : Bool := !fixedPaths.contains file.path
  have kept : ((groupTags blueprint.actions).map fun tag =>
        groupModule tag (taggedWith tag blueprint.actions)).filter isGroup =
      (groupTags blueprint.actions).map fun tag =>
        groupModule tag (taggedWith tag blueprint.actions) := by
    refine List.filter_eq_self.mpr fun file member => ?_
    obtain ⟨tag, known, rfl⟩ := List.mem_map.mp member
    have free : ¬ fixedPaths.contains (groupPath tag) = true := fun fixed =>
      groupPath_not_mem_fixedPaths (groupTag_ne_index_of_mem named tag known)
        (List.contains_iff_mem.mp fixed)
    exact (Bool.not_eq_true' _).mpr (Bool.eq_false_iff.mpr free)
  have first : [connectionsModule blueprint.connections].filter isGroup = [] := rfl
  have last : [indexModule (groupTags blueprint.actions),
      clientModule blueprint.baseUrl blueprint.connections,
      manifestModule key blueprint.profile category].filter isGroup = [] := rfl
  have chosen : (sourceFiles key blueprint category).filter isGroup =
      (groupTags blueprint.actions).map fun tag =>
        groupModule tag (taggedWith tag blueprint.actions) := by
    rw [sourceFiles_eq, ← List.singleton_append, List.append_assoc, List.filter_append,
      List.filter_append, first, kept, last, List.nil_append, List.append_nil]
  rw [groupArtifacts, artifactsOf_sourceFiles named, textsOf, List.filter_map]
  refine (congrArg (List.map fun file : SourceFile => (file.path, file.render)) chosen).trans ?_
  rw [List.map_map]
  rfl

theorem declared_groupArtifacts {blueprint : Blueprint} (named : WellNamed blueprint)
    {key category : String}
    (readable : ∀ file ∈ sourceFiles key blueprint category, file.Readable) :
    ((groupArtifacts (artifactsOf (sourceFiles key blueprint category))).flatMap constantsOf).Perm
      (blueprint.actions.map constantOf) := by
  have read : ∀ tag ∈ groupTags blueprint.actions,
      constantsOf (groupPath tag, (groupModule tag (taggedWith tag blueprint.actions)).render) =
        (taggedWith tag blueprint.actions).map constantOf := by
    intro tag known
    rw [constantsOf, (readable _ (groupModule_mem known)).outline?_render]
    exact List.map_map
  rw [groupArtifacts_sourceFiles named, List.flatMap_map, List.flatMap_congr read, ← List.map_flatMap]
  exact (flatMap_groupTags blueprint.actions).map constantOf

/--
Artifacts that hold every action once: four fixed ones and one for each tag of an action, each the text
of a module.
-/
structure HoldsOnce (actions : List Action) (artifacts : Artifacts) : Prop where
  distinct : (artifacts.map Prod.fst).Nodup
  paths : (artifacts.map Prod.fst).Perm (fixedPaths ++ (groupTags actions).map groupPath)
  read : ∀ artifact ∈ artifacts, (outline? artifact.2).isSome = true
  grouped : ∀ tag ∈ groupTags actions, ∃ text outline, (groupPath tag, text) ∈ artifacts ∧
    outline? text = some outline ∧ IsGroup tag actions outline
  declared : ((groupArtifacts artifacts).flatMap constantsOf).Perm (actions.map constantOf)

theorem holdsOnce_sourceFiles {blueprint : Blueprint} (named : WellNamed blueprint)
    {key category : String}
    (readable : ∀ file ∈ sourceFiles key blueprint category, file.Readable) :
    HoldsOnce blueprint.actions (artifactsOf (sourceFiles key blueprint category)) := by
  obtain ⟨seen, given⟩ := named.actions
  have artifacts := artifactsOf_sourceFiles named key category
  have paths : (artifactsOf (sourceFiles key blueprint category)).map Prod.fst =
      (sourceFiles key blueprint category).map SourceFile.path := by
    rw [artifacts, textsOf, List.map_map]
    rfl
  refine ⟨?_, ?_, fun artifact member => ?_, fun tag known => ?_,
    declared_groupArtifacts named readable⟩
  · rw [paths]
    exact nodup_paths named key category
  · rw [paths]
    exact paths_sourceFiles key blueprint category
  · rw [artifacts] at member
    obtain ⟨file, inside, rfl⟩ := List.mem_map.mp member
    rw [(readable file inside).outline?_render]
    rfl
  · have inside : _ ∈ sourceFiles key blueprint category := groupModule_mem known
    refine ⟨_, _, ?_, (readable _ inside).outline?_render, isGroup_groupModule given tag⟩
    rw [artifacts]
    exact List.mem_map_of_mem (f := fun file : SourceFile => (file.path, file.render)) inside

/--
Rendering loses and doubles nothing. The artifacts are four fixed files and one for each tag of an
action, all under different paths, and each is the text of a module; the one for a tag declares and
exports the actions with that tag in their order; over all of these every action is declared once,
under a key of its own; and no tag takes the name of the index.
-/
theorem render_complete {document : Openapi.Document} {fallback : Option String}
    {iconPath : String} {blueprint : Blueprint} {log log' : Log}
    (assembled : (assemble document fallback iconPath).run log = (.ok blueprint, log'))
    (key category : String) (before : Log) :
    (∃ artifacts after, (render key blueprint category).run before = (.ok artifacts, after) ∧
      artifacts = textsOf (sourceFiles key blueprint category) ∧
      HoldsOnce blueprint.actions artifacts) ∧
    (∀ tag, tag ∈ groupTags blueprint.actions ↔
      ∃ action ∈ blueprint.actions, action.groupTag = tag) ∧
    (blueprint.actions.map Action.key).Nodup ∧
    ∀ path tag, Naming.groupTag path = .ok tag → tag ≠ "index" := by
  have named := wellNamed_assemble assembled
  obtain ⟨seen, given⟩ := named.actions
  obtain ⟨after, rendered⟩ := render_eq key blueprint category before
  exact ⟨⟨_, after, rendered, artifactsOf_sourceFiles named key category,
    holdsOnce_sourceFiles named (readable_sourceFiles assembled key category)⟩,
    fun _ => mem_groupTags, given.distinct, fun _ _ => Naming.groupTag_ne_index⟩

theorem render_complete_shop :
    ∃ blueprint log artifacts after,
      (assemble shopDocument none Profile.standardIcon).run #[] = (.ok blueprint, log) ∧
      (render "shop" blueprint standardCategory).run #[] = (.ok artifacts, after) ∧
      (artifacts.map Prod.fst).Perm
        ["src/connections.ts", "src/actions/index.ts", "src/client.ts", "src/index.ts",
          "src/actions/orders.ts", "src/actions/indexGroup.ts"] ∧
      HoldsOnce blueprint.actions artifacts := by
  obtain ⟨blueprint, log, assembled, tags, -⟩ := assemble_shop
  obtain ⟨⟨artifacts, after, rendered, -, held⟩, -⟩ :=
    render_complete assembled "shop" standardCategory #[]
  refine ⟨blueprint, log, artifacts, after, assembled, rendered, ?_, held⟩
  have paths := held.paths
  rw [tags] at paths
  exact paths.trans (.of_eq (by decide))

end ApiCompiler.Modules
