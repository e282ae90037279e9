import ApiCompiler.Proofs.Emission.Undoing

/-!
The output directory along its path, before and after the steps of an emission.
-/

namespace ApiCompiler

theorem FilePath.mem_resolveFrom {path : FilePath} {workingDirectory : Place} {name : String}
    (inside : name ∈ path.resolveFrom workingDirectory) :
    name ∈ workingDirectory ∨ name ∈ path.segments := by
  have climbed : ∀ (names : List String) (start : Place),
      name ∈ names.foldl climb start → name ∈ start ∨ name ∈ names := by
    intro names
    induction names with
    | nil => exact fun _ inside => .inl inside
    | cons first names ih =>
        intro start inside
        rcases ih _ inside with early | late
        · rw [climb] at early
          split at early
          · exact .inl (List.dropLast_subset _ early)
          · rcases List.mem_append.mp early with before | here
            · exact .inl before
            · exact .inr (by simp [List.mem_singleton.mp here])
        · exact .inr (List.mem_cons_of_mem _ late)
  rcases climbed _ _ inside with early | late
  · split at early
    · cases early
    · exact .inl early
  · exact .inr late

namespace Emission.Site

open Disk

variable {site : Site}

theorem Fresh.descending_staged (fresh : site.Fresh) {segments : List String}
    (allows : site.Allows segments) {folder : String} (down : folder ≠ "..") :
    ".." ∉ site.stagingName :: folder :: segments := by
  simp [allows.descending, Ne.symm fresh.descending, Ne.symm down]

theorem Fresh.not_mem_base (fresh : site.Fresh) : site.stagingName ∉ site.base := fun inside =>
  (FilePath.mem_resolveFrom inside).elim fresh.working fresh.output

/-- The path of the output directory leads to it. -/
structure Reaches (site : Site) (disk : Disk) : Prop where
  found : disk.locate site.output = .ok site.base
  directory : disk.entry? site.base = some .directory

namespace Reaches

variable {disk : Disk}

theorem anchored (reaches : site.Reaches disk) : disk.Anchored site.output := by
  by_cases empty : site.output.segments = []
  · have found := reaches.found
    rw [locate, empty] at found
    rw [Anchored, Except.ok.inj found]
    exact reaches.directory
  · exact (foldlM_walk_ok reaches.found).2 empty

/-- The path leads on as long as no directory outside the staging directory is lost. -/
theorem congr (reaches : site.Reaches disk) (fresh : site.Fresh)
    (working : disk.workingDirectory = site.origin.workingDirectory) {after : Disk}
    (same : after.workingDirectory = disk.workingDirectory)
    (directories : ∀ place, site.stagingName ∉ place → disk.entry? place = some .directory →
      after.entry? place = some .directory) : site.Reaches after := by
  refine ⟨locate_congr same (fun other names directory => ?_) reaches.found,
    directories _ fresh.not_mem_base reaches.directory⟩
  refine directories other (fun inside => ?_) directory
  rcases names _ inside with early | late
  · rw [start] at early
    split at early
    · cases early
    · exact fresh.working (working ▸ early)
  · exact fresh.output late

theorem grow (reaches : site.Reaches disk) {after : Disk} (grown : Grown disk after) :
    site.Reaches after :=
  ⟨grown.locate reaches.found, grown.kept _ _ reaches.directory⟩

theorem of_locate {names : List String} {place : Place}
    (working : disk.workingDirectory = site.origin.workingDirectory) (nonempty : names ≠ [])
    (descending : ".." ∉ names) (found : disk.locate (site.output.descend names) = .ok place) :
    site.Reaches disk ∧ place = site.base ++ names := by
  obtain ⟨base, first, rfl, directory⟩ := locate_descend_ok descending found
  obtain rfl : base = site.base := by
    rw [locate_ok first, working]
    rfl
  exact ⟨⟨first, directory nonempty⟩, rfl⟩

theorem of_locate_staged (fresh : site.Fresh) {segments : List String}
    (allows : site.Allows segments) {folder : String} (down : folder ≠ "..") {place : Place}
    (working : disk.workingDirectory = site.origin.workingDirectory)
    (found : disk.locate (site.output.descend (site.stagingName :: folder :: segments)) =
      .ok place) : site.Reaches disk ∧ place = site.staging ++ folder :: segments := by
  obtain ⟨reaches, rfl⟩ :=
    of_locate working (by simp) (fresh.descending_staged allows down) found
  exact ⟨reaches, by simp [staging]⟩

theorem of_isDirectory {names : List String}
    (working : disk.workingDirectory = site.origin.workingDirectory) (descending : ".." ∉ names)
    (directory : disk.isDirectory (site.output.descend names) = true) : site.Reaches disk := by
  obtain ⟨place, found, here⟩ := isDirectory_iff.mp directory
  by_cases direct : names = []
  · subst direct
    rw [FilePath.descend, List.append_nil] at found
    have base : place = site.base := by
      rw [locate_ok found, working]
      rfl
    exact ⟨base ▸ found, base ▸ here⟩
  · exact (of_locate working direct descending found).1

theorem locate_of_present (reaches : site.Reaches disk) (tree : disk.IsTree)
    {names : List String} (nonempty : names ≠ []) (descending : ".." ∉ names)
    (present : disk.entry? (site.base ++ names) ≠ none) :
    disk.locate (site.output.descend names) = .ok (site.base ++ names) := by
  refine locate_descend_of_directory tree reaches.found descending nonempty ?_
  have whole : site.base ++ names.dropLast ++ [names.getLast nonempty] = site.base ++ names := by
    rw [List.append_assoc, List.dropLast_concat_getLast]
  exact tree _ _ (whole ▸ present)

/-- Whether anything is at a target can be seen from the output directory. -/
theorem holds_iff (reaches : site.Reaches disk) (tree : disk.IsTree)
    (working : disk.workingDirectory = site.origin.workingDirectory) {segments : List String}
    (allows : site.Allows segments) :
    disk.holds (site.output.descend segments) = true ↔
      disk.entry? (site.target segments) ≠ none := by
  rw [Disk.holds_iff]
  constructor
  · rintro ⟨place, found, present⟩
    obtain ⟨-, rfl⟩ := of_locate working allows.nonempty allows.descending found
    exact present
  · intro present
    exact ⟨_, reaches.locate_of_present tree allows.nonempty allows.descending present, present⟩

theorem erase (reaches : site.Reaches disk) (fresh : site.Fresh) (tree : disk.IsTree)
    (working : disk.workingDirectory = site.origin.workingDirectory) {place : Place}
    (nonroot : place ≠ []) (other : disk.entry? place ≠ some .directory) :
    site.Reaches (disk.erase place) := by
  refine reaches.congr fresh working rfl fun visited _ directory => ?_
  rw [entry?_erase _ nonroot, if_neg (tree.not_below other directory), directory]

theorem transfer (reaches : site.Reaches disk) (fresh : site.Fresh) (tree : disk.IsTree)
    (working : disk.workingDirectory = site.origin.workingDirectory) {source target : Place}
    (apart : Apart source target) (staged : site.staging <+: source)
    (other : disk.entry? target ≠ some .directory) : site.Reaches (disk.transfer source target) := by
  refine reaches.congr fresh working rfl fun visited names directory => ?_
  have outside : ¬ source <+: visited := fun inside =>
    names ((staged.trans inside).subset (by simp [staging]))
  rw [entry?_transfer _ apart, if_neg (tree.not_below other directory), if_neg outside, directory]

end Reaches

/-- The output directory can be reached, or nothing has been done there yet. -/
structure Settled (site : Site) (disk : Disk) (done : List Move) : Prop where
  anchored : disk.Anchored site.output
  reaches : site.Reaches disk ∨
    done = [] ∧ ∀ place, site.staging <+: place → disk.entry? place = none

theorem Reaches.settled {disk : Disk} (reaches : site.Reaches disk) (done : List Move) :
    site.Settled disk done :=
  ⟨reaches.anchored, .inl reaches⟩

/-- Directories below the output directory are only made after it. -/
theorem Settled.made {disk after : Disk} {done : List Move} (settled : site.Settled disk done)
    (fresh : site.Fresh) (working : disk.workingDirectory = site.origin.workingDirectory)
    {names : List String} (descending : ".." ∉ names)
    (made : Made disk after (site.output.descend names)) : site.Settled after done := by
  refine ⟨made.grown.anchored settled.anchored, ?_⟩
  rcases settled.reaches with reaches | ⟨none, absent⟩
  · exact .inl (reaches.grow made.grown)
  by_cases still : ∀ place, site.staging <+: place → after.entry? place = Option.none
  · exact .inr ⟨none, still⟩
  left
  push Not at still
  obtain ⟨place, inside, present⟩ := still
  have working' := made.grown.working.trans working
  obtain ⟨front, along, found⟩ := made.along place (absent place inside) present
  have outside : ¬ front <+: site.output.segments := by
    intro early
    have member : site.stagingName ∈ place := inside.subset (by simp [staging])
    rw [locate_ok found, working'] at member
    rcases FilePath.mem_resolveFrom member with start | segment
    · exact fresh.working start
    · exact fresh.output (early.subset segment)
  rcases List.prefix_or_prefix_of_prefix along (List.prefix_append _ names) with early | late
  · exact absurd early outside
  obtain ⟨rest, rfl⟩ := late
  have nonempty : rest ≠ [] := by
    rintro rfl
    exact outside (by simp)
  have below : rest <+: names := (List.prefix_append_right_inj _).mp along
  exact (Reaches.of_locate working' nonempty (fun up => descending (below.subset up)) found).1

end Emission.Site

end ApiCompiler
