import ApiCompiler.Proofs.Modules.Bindings

/-!
Names at the top of the index of actions. No group is imported under a name that the index binds
besides the groups. Two groups are imported under one name exactly if one has such a name for its tag
and the other the name that the first gives way to.
-/

namespace ApiCompiler.Modules

open Component Script ApiCompiler.Derivation

theorem importName_of_mem {tag : String} (taken : tag ∈ indexNames) :
    importName tag = tag ++ "Group" := by
  rw [importName, if_pos (by simpa using taken)]

theorem importName_of_not_mem {tag : String} (free : tag ∉ indexNames) : importName tag = tag := by
  rw [importName, if_neg (by simpa using free)]

theorem append_group_not_mem {name : String} (taken : name ∈ indexNames) :
    name ++ "Group" ∉ indexNames := by
  have all : ∀ name ∈ indexNames, name ++ "Group" ∉ indexNames := by decide
  exact all name taken

theorem importName_not_mem (tag : String) : importName tag ∉ indexNames := by
  by_cases taken : tag ∈ indexNames
  · rw [importName_of_mem taken]
    exact append_group_not_mem taken
  · rw [importName_of_not_mem taken]
    exact taken

/-- Two tags share a name exactly if one of them is what the other gives way to. -/
theorem importName_eq_iff {first second : String} (different : first ≠ second) :
    importName first = importName second ↔
      (first ∈ indexNames ∧ second = first ++ "Group") ∨
        (second ∈ indexNames ∧ first = second ++ "Group") := by
  by_cases one : first ∈ indexNames
  · by_cases other : second ∈ indexNames
    · rw [importName_of_mem one, importName_of_mem other]
      constructor
      · exact fun same => absurd ((String.append_left_inj _).mp same) different
      · rintro (⟨-, rfl⟩ | ⟨-, rfl⟩)
        · exact absurd other (append_group_not_mem one)
        · exact absurd one (append_group_not_mem other)
    · rw [importName_of_mem one, importName_of_not_mem other]
      simp [one, other, eq_comm]
  · by_cases other : second ∈ indexNames
    · rw [importName_of_not_mem one, importName_of_mem other]
      simp [one, other]
    · rw [importName_of_not_mem one, importName_of_not_mem other]
      simp [one, other, different]

theorem nodup_map_importName_iff {tags : List String} (distinct : tags.Nodup) :
    (tags.map importName).Nodup ↔
      ∀ name ∈ indexNames, name ∈ tags → name ++ "Group" ∉ tags := by
  rw [List.nodup_map_iff_inj_on distinct]
  constructor
  · intro injective name taken here there
    have different : name ≠ name ++ "Group" := fun same =>
      append_group_not_mem taken (same ▸ taken)
    exact different (injective name here _ there
      ((importName_eq_iff different).mpr (.inl ⟨taken, rfl⟩)))
  · intro apart first one second other same
    by_contra different
    rcases (importName_eq_iff different).mp same with ⟨taken, rfl⟩ | ⟨taken, rfl⟩
    · exact apart first taken one other
    · exact apart second taken other one

theorem boundNames_indexModule {tags : List String} (distinct : tags.Nodup) :
    (indexModule tags).boundNames.Perm (indexNames ++ tags.map importName) := by
  have groups : (tags.map fun tag => ({ source := "./" ++ tag, main := some (importName tag) } :
      Import)).flatMap Import.boundNames = tags.map importName := by
    rw [List.flatMap_map]
    exact List.flatMap_pure_eq_map importName tags
  have fixed : ([{ source := httpClientModule, names := ["buildRawRequestAction"] },
      { source := "../client", names := ["baseUrl"] }] : List Import).flatMap Import.boundNames =
        ["buildRawRequestAction", "baseUrl"] := by decide
  have undeclared : (indexModule tags).declarations = [] := rfl
  rw [SourceFile.boundNames, imports_indexModule distinct, undeclared, List.flatMap_append, fixed,
    groups, List.map_nil, List.append_nil]
  exact .append_right _ (.swap _ _ [])

/--
The index of any actions binds each name once unless a group is called like a name that the index
binds besides the groups, and another one like the name that the first is imported under instead.
-/
theorem nodup_boundNames_indexModule_iff (actions : List Action) :
    (∀ tag ∈ groupTags actions, importName tag ∉ indexNames) ∧
      ((indexModule (groupTags actions)).boundNames.Nodup ↔
        ∀ name ∈ indexNames, name ∈ groupTags actions → name ++ "Group" ∉ groupTags actions) := by
  have distinct := nodup_groupTags actions
  refine ⟨fun tag _ => importName_not_mem tag, ?_⟩
  rw [(boundNames_indexModule distinct).nodup_iff, ← nodup_map_importName_iff distinct,
    List.nodup_append]
  constructor
  · exact fun ⟨_, names, _⟩ => names
  · refine fun names => ⟨by decide, names, ?_⟩
    rintro name taken _ imported rfl
    obtain ⟨tag, -, rfl⟩ := List.mem_map.mp imported
    exact importName_not_mem tag taken

/-- Two paths whose tags are a name of the index and the name that it gives way to. -/
def mirrorDocument : Openapi.Document :=
  { openapi := "3.0.0"
    info := ⟨"Mirror", .absent, none, []⟩
    servers := none
    paths := some [("/baseUrl", twinItem "base"), ("/baseUrlGroup", twinItem "group")]
    components := .absent
    basePath := .given "https://mirror.example"
    extras := [] }

theorem indexModule_binds_twice :
    ∃ blueprint log, (assemble mirrorDocument none Profile.standardIcon).run #[] =
        (.ok blueprint, log) ∧
      ¬(indexModule (groupTags blueprint.actions)).boundNames.Nodup := by
  have computed : ((assemble mirrorDocument none Profile.standardIcon).run #[]).1.toOption.map
      (fun blueprint => groupTags blueprint.actions) = some ["baseUrl", "baseUrlGroup"] := by
    decide +kernel
  rcases ran : (assemble mirrorDocument none Profile.standardIcon).run #[] with ⟨result, log⟩
  rw [ran] at computed
  match result with
  | .error problem => cases computed
  | .ok blueprint =>
      have tags : groupTags blueprint.actions = ["baseUrl", "baseUrlGroup"] :=
        Option.some.inj computed
      refine ⟨blueprint, log, rfl, fun distinct => ?_⟩
      have apart := (nodup_boundNames_indexModule_iff blueprint.actions).2.mp distinct
      rw [tags] at apart
      exact apart "baseUrl" (by decide) (by decide) (by decide)

end ApiCompiler.Modules
