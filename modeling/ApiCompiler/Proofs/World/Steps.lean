import ApiCompiler.Emission.Drive
import ApiCompiler.Proofs.World.Disk

/-!
What each step leaves on a disk: what it is when it was taken, and how far it went when it was not.
-/

namespace ApiCompiler

namespace Disk

theorem find?_eq_some {disk : Disk} {path : FilePath} {entry : Entry} :
    disk.find? path = some entry ↔
      ∃ place, disk.locate path = .ok place ∧ disk.entry? place = some entry := by
  rw [find?]
  cases disk.locate path with
  | error errno => simp
  | ok place => simp

theorem isDirectory_iff {disk : Disk} {path : FilePath} :
    disk.isDirectory path = true ↔
      ∃ place, disk.locate path = .ok place ∧ disk.entry? place = some .directory := by
  rw [isDirectory, decide_eq_true_iff, find?_eq_some]

theorem holds_iff {disk : Disk} {path : FilePath} :
    disk.holds path = true ↔
      ∃ place, disk.locate path = .ok place ∧ disk.entry? place ≠ none := by
  rw [holds, Option.isSome_iff_exists]
  constructor
  · rintro ⟨entry, found⟩
    obtain ⟨place, located, present⟩ := find?_eq_some.mp found
    exact ⟨place, located, by simp [present]⟩
  · rintro ⟨place, located, present⟩
    obtain ⟨entry, present⟩ := Option.ne_none_iff_exists'.mp present
    exact ⟨entry, find?_eq_some.mpr ⟨place, located, present⟩⟩

/-! Making directories. -/

/-- The path starts from a directory that is there. -/
def Anchored (disk : Disk) (path : FilePath) : Prop :=
  disk.entry? (disk.start path) = some .directory

theorem Grown.anchored {before after : Disk} (grown : Grown before after) {path : FilePath}
    (anchored : before.Anchored path) : after.Anchored path := by
  rw [Anchored, start, grown.working]
  exact grown.kept _ _ anchored

/-- Directories were added, all of them along a path. -/
structure Made (before after : Disk) (path : FilePath) : Prop where
  tree : after.IsTree
  grown : Grown before after
  along : ∀ place, before.entry? place = none → after.entry? place ≠ none →
    ∃ front, front <+: path.segments ∧ after.locate ⟨path.isAbsolute, front⟩ = .ok place

namespace Made

theorem refl {disk : Disk} (tree : disk.IsTree) (path : FilePath) : Made disk disk path :=
  ⟨tree, Grown.refl disk, fun _ absent present => absurd absent present⟩

theorem trans {first second third : Disk} {path : FilePath} (before : Made first second path)
    (after : Made second third path) : Made first third path := by
  refine ⟨after.tree, before.grown.trans after.grown, fun place absent present => ?_⟩
  by_cases early : second.entry? place = none
  · exact after.along place early present
  · obtain ⟨front, inside, found⟩ := before.along place absent early
    exact ⟨front, inside, after.grown.locate found⟩

theorem extend {before after : Disk} {isAbsolute : Bool} {front : List String}
    (made : Made before after ⟨isAbsolute, front⟩) {segments : List String}
    (inside : front <+: segments) : Made before after ⟨isAbsolute, segments⟩ := by
  refine ⟨made.tree, made.grown, fun place absent present => ?_⟩
  obtain ⟨first, shorter, found⟩ := made.along place absent present
  exact ⟨first, shorter.trans inside, found⟩

end Made

theorem makeDirectory_ok {disk after : Disk} {path : FilePath} (tree : disk.IsTree)
    (anchored : disk.Anchored path) (made : disk.makeDirectory path = .ok after) :
    Made disk after path ∧ after.isDirectory path = true := by
  rw [makeDirectory] at made
  split at made
  · cases made
  rename_i place found
  split at made
  swap
  · cases made
  rename_i absent
  cases made
  have nonroot : place ≠ [] := by
    rintro rfl
    cases absent
  have nonempty : path.segments ≠ [] := by
    intro none
    have here : place = disk.start path := by
      rw [locate, none] at found
      exact (Except.ok.inj found).symm
    rw [here, anchored] at absent
    cases absent
  have grown := Grown.put nonroot absent
  have found' := grown.locate found
  refine ⟨⟨?_, grown, fun other missing present => ?_⟩, isDirectory_iff.mpr ⟨place, found', ?_⟩⟩
  · exact tree.put nonroot (locate_parent tree found nonempty nonroot) (.inr rfl)
  · rw [entry?_put _ nonroot] at present
    split at present
    · rename_i same
      exact ⟨path.segments, List.prefix_refl _, same ▸ found'⟩
    · exact absurd missing present
  · rw [entry?_put _ nonroot, if_pos rfl]

theorem makeDirectory_error {disk : Disk} {path : FilePath} {fault : DiskFault}
    (refused : disk.makeDirectory path = .error fault) : fault.path = path := by
  rw [makeDirectory] at refused
  split at refused
  · cases refused
    rfl
  · split at refused <;> cases refused
    rfl

theorem unlessDirectory_made {disk : Disk} (tree : disk.IsTree) (fault : DiskFault) :
    Made disk (disk.unlessDirectory fault).2 fault.path ∧
      ((disk.unlessDirectory fault).1 = .ok () →
        (disk.unlessDirectory fault).2.isDirectory fault.path = true) := by
  rw [unlessDirectory]
  refine ⟨Made.refl tree _, fun ok => ?_⟩
  by_contra other
  simp [other] at ok

theorem makeWithParents_made (depth : Nat) (path : FilePath) {disk : Disk} (tree : disk.IsTree)
    (anchored : disk.Anchored path) :
    Made disk (makeWithParents depth path disk).2 path ∧
      ((makeWithParents depth path disk).1 = .ok () →
        (makeWithParents depth path disk).2.isDirectory path = true) := by
  induction depth generalizing path disk with
  | zero => exact ⟨Made.refl tree path, nofun⟩
  | succ depth ih =>
      rw [makeWithParents]
      cases first : disk.makeDirectory path with
      | ok after =>
          obtain ⟨made, directory⟩ := makeDirectory_ok tree anchored first
          exact ⟨made, fun _ => directory⟩
      | error fault =>
          obtain rfl := makeDirectory_error first
          dsimp only
          split
          · exact unlessDirectory_made tree _
          -- The parents come first, and the directory itself is tried once more after them.
          have parents := (ih fault.path.parent tree anchored).1
          revert parents
          cases makeWithParents depth fault.path.parent disk with
          | mk result middle =>
              intro parents
              have before : Made disk middle fault.path :=
                Made.extend parents (List.dropLast_prefix _)
              cases result with
              | error _ => exact ⟨before, nofun⟩
              | ok _ =>
                  dsimp only
                  cases second : middle.makeDirectory fault.path with
                  | ok after =>
                      obtain ⟨made, directory⟩ :=
                        makeDirectory_ok before.tree (before.grown.anchored anchored) second
                      exact ⟨before.trans made, fun _ => directory⟩
                  | error other =>
                      have same := makeDirectory_error second
                      dsimp only
                      split
                      · obtain ⟨last, directory⟩ := unlessDirectory_made before.tree other
                        rw [same] at last directory
                        exact ⟨before.trans last, directory⟩
                      · exact ⟨before, nofun⟩

theorem makeDirectories_made (path : FilePath) {disk : Disk} (tree : disk.IsTree)
    (anchored : disk.Anchored path) :
    Made disk (disk.makeDirectories path).2 path ∧
      ((disk.makeDirectories path).1 = .ok () →
        (disk.makeDirectories path).2.isDirectory path = true) :=
  makeWithParents_made _ path tree anchored

/-! Writing, moving and removing. -/

theorem write_ok {disk after : Disk} {path : FilePath} {bytes : ByteArray}
    (written : disk.write path bytes = .ok after) :
    ∃ place, disk.locate path = .ok place ∧ disk.entry? place ≠ some .directory ∧
      after = disk.put place (.file bytes) := by
  rw [write] at written
  split at written
  · cases written
  · rename_i place found
    split at written
    · cases written
    · rename_i other
      exact ⟨place, found, other, (Except.ok.inj written).symm⟩

theorem move_ok {disk after : Disk} {source target : FilePath}
    (moved : disk.move source target = .ok after) :
    ∃ a b, disk.locate source = .ok a ∧ disk.locate target = .ok b ∧
      (a = b ∧ after = disk ∨ Apart a b ∧ after = disk.transfer a b) := by
  simp only [move] at moved
  split at moved
  · cases moved
  · cases moved
  · rename_i a b foundSource foundTarget
    split at moved
    · cases moved
    rename_i allowed
    refine ⟨a, b, foundSource, foundTarget, ?_⟩
    have result := (Except.ok.inj moved).symm
    by_cases same : a = b
    · rw [if_pos same] at result
      exact .inl ⟨same, result⟩
    · rw [if_neg same] at result
      refine .inr ⟨⟨fun inside => ?_, fun inside => ?_⟩, result⟩
      · simp [moveRefusal, same, List.isPrefixOf_iff_prefix.mpr inside] at allowed
      · rw [moveRefusal] at allowed
        split at allowed
        · cases allowed
        · simp [same, List.isPrefixOf_iff_prefix.mpr inside] at allowed

theorem remove_ok {disk after : Disk} {path : FilePath} (removed : disk.remove path = .ok after) :
    ∃ place bytes, disk.locate path = .ok place ∧ disk.entry? place = some (.file bytes) ∧
      after = disk.erase place := by
  rw [remove] at removed
  split at removed
  · cases removed
  · rename_i place found
    split at removed
    · cases removed
    · cases removed
    · rename_i bytes present
      exact ⟨place, bytes, found, present, (Except.ok.inj removed).symm⟩

theorem removeDirectory_ok {disk after : Disk} {path : FilePath}
    (removed : disk.removeDirectory path = .ok after) :
    ∃ place, disk.locate path = .ok place ∧ after = disk.erase place := by
  rw [removeDirectory] at removed
  split at removed
  · cases removed
  · rename_i place found
    split at removed
    · cases removed
    · cases removed
    · split at removed
      · exact ⟨place, found, (Except.ok.inj removed).symm⟩
      · cases removed

theorem changed_ok {disk : Disk} {result : Except DiskFault Disk}
    (ok : (disk.changed result).1 = .ok ()) : result = .ok (disk.changed result).2 := by
  cases result with
  | ok after => rfl
  | error fault => cases ok

theorem changed_error {disk : Disk} {result : Except DiskFault Disk} {fault : DiskFault}
    (refused : (disk.changed result).1 = .error fault) : (disk.changed result).2 = disk := by
  cases result with
  | ok after => cases refused
  | error fault => rfl

end Disk

end ApiCompiler
