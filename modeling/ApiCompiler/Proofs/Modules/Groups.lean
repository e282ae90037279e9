import Mathlib.Data.List.Nodup
import Mathlib.Data.List.Perm.Basic
import ApiCompiler.Modules.Artifacts
import ApiCompiler.Proofs.Tree.Latest

/-!
Groups of actions: one for each tag, and together they hold every action once. With them, the source
files of a component in full.
-/

namespace ApiCompiler.Modules

open Component

/-- The tags of actions, each once. -/
def groupTags (actions : List Action) : List String :=
  (groupActions actions).map Prod.fst

def taggedWith (tag : String) (actions : List Action) : List Action :=
  actions.filter fun action => action.groupTag = tag

section Groups

variable {actions : List Action}

theorem groupTags_eq (actions : List Action) :
    groupTags actions = (actions.map Action.groupTag).eraseDups := by
  simp [groupTags, groupActions, Function.comp_def]

theorem groupActions_eq (actions : List Action) :
    groupActions actions = (groupTags actions).map fun tag => (tag, taggedWith tag actions) := by
  rw [groupTags_eq]
  rfl

theorem nodup_groupTags (actions : List Action) : (groupTags actions).Nodup := by
  rw [groupTags_eq]
  exact nodup_eraseDups _

theorem mem_groupTags {tag : String} :
    tag ∈ groupTags actions ↔ ∃ action ∈ actions, action.groupTag = tag := by
  rw [groupTags_eq, List.mem_eraseDups, List.mem_map]

/-- Different tags cut a list into parts that make it up again. -/
theorem flatMap_taggedWith {tags : List String} (distinct : tags.Nodup)
    (known : ∀ action ∈ actions, action.groupTag ∈ tags) :
    (tags.flatMap fun tag => taggedWith tag actions).Perm actions := by
  induction tags generalizing actions with
  | nil =>
      cases actions with
      | nil => exact .nil
      | cons action actions => exact absurd (known action (by simp)) List.not_mem_nil
  | cons tag tags ih =>
      obtain ⟨apart, distinct⟩ := List.nodup_cons.mp distinct
      let others := actions.filter fun action => !decide (action.groupTag = tag)
      have elsewhere : ∀ action ∈ others, action.groupTag ∈ tags := by
        intro action member
        obtain ⟨member, other⟩ := List.mem_filter.mp member
        exact (List.mem_cons.mp (known action member)).resolve_left (by simpa using other)
      have same : ∀ next ∈ tags, taggedWith next actions = taggedWith next others := by
        intro next member
        rw [taggedWith, taggedWith, List.filter_filter]
        refine List.filter_congr fun action _ => ?_
        by_cases tagged : action.groupTag = next
        · have different : next ≠ tag := fun same => apart (same ▸ member)
          simp [tagged, different]
        · simp [tagged]
      rw [List.flatMap_cons, List.flatMap_congr same]
      exact ((ih distinct elsewhere).append_left _).trans (List.filter_append_perm _ actions)

theorem flatMap_groupTags (actions : List Action) :
    ((groupTags actions).flatMap fun tag => taggedWith tag actions).Perm actions :=
  flatMap_taggedWith (nodup_groupTags actions) fun action member =>
    mem_groupTags.mpr ⟨action, member, rfl⟩

end Groups

/-! Source files. -/

theorem sourceFiles_eq (key : String) (blueprint : Blueprint) (category : String) :
    sourceFiles key blueprint category =
      connectionsModule blueprint.connections ::
        ((groupTags blueprint.actions).map fun tag =>
            groupModule tag (taggedWith tag blueprint.actions)) ++
          [indexModule (groupTags blueprint.actions),
            clientModule blueprint.baseUrl blueprint.connections,
            manifestModule key blueprint.profile category] := by
  rw [sourceFiles, actionModules, groupActions_eq]
  simp [Function.comp_def]

theorem mem_sourceFiles {key category : String} {blueprint : Blueprint} {file : Script.SourceFile} :
    file ∈ sourceFiles key blueprint category ↔
      file = connectionsModule blueprint.connections ∨
      (∃ tag ∈ groupTags blueprint.actions,
        file = groupModule tag (taggedWith tag blueprint.actions)) ∨
      file = indexModule (groupTags blueprint.actions) ∨
      file = clientModule blueprint.baseUrl blueprint.connections ∨
      file = manifestModule key blueprint.profile category := by
  rw [sourceFiles_eq]
  simp [eq_comm (a := file)]

section Members

variable {key category : String} {blueprint : Blueprint}

theorem connectionsModule_mem :
    connectionsModule blueprint.connections ∈ sourceFiles key blueprint category :=
  mem_sourceFiles.mpr (.inl rfl)

theorem groupModule_mem {tag : String} (known : tag ∈ groupTags blueprint.actions) :
    groupModule tag (taggedWith tag blueprint.actions) ∈ sourceFiles key blueprint category :=
  mem_sourceFiles.mpr (.inr (.inl ⟨tag, known, rfl⟩))

theorem indexModule_mem :
    indexModule (groupTags blueprint.actions) ∈ sourceFiles key blueprint category :=
  mem_sourceFiles.mpr (.inr (.inr (.inl rfl)))

theorem clientModule_mem :
    clientModule blueprint.baseUrl blueprint.connections ∈ sourceFiles key blueprint category :=
  mem_sourceFiles.mpr (.inr (.inr (.inr (.inl rfl))))

end Members

end ApiCompiler.Modules
