import ApiCompiler.Proofs.Emission.Writing

/-!
An emission that breaks off leaves every file as it was.
-/

namespace ApiCompiler.Emission

open Disk

namespace Site

variable {site : Site} {done : List Move} {move : Move}

/-! Restoring. -/

/-- What is known when nothing is in the way of what was put aside. -/
structure Freed (site : Site) (done : List Move) (move : Move) (disk : Disk) : Prop where
  undoable : site.Undoable disk (done ++ [move])
  reaches : move.replaced = false → site.Reaches disk
  absent : site.Reaches disk → disk.entry? (site.target move.segments) = none

theorem clear_leads (fresh : site.Fresh) (orderly : site.Orderly (done ++ [move])) :
    Leads (fun disk _ => site.Undoable disk (done ++ [move]) ∧
        (move.replaced = false → site.Reaches disk))
      (clear (site.placement move).destination)
      (fun _ disk _ => site.Freed done move disk) (fun _ _ => True) := by
  have allows := orderly.last
  refine (Leads.holds fun _ _ _ => trivial).bind fun present => ?_
  cases present with
  | false =>
      refine Leads.pure fun disk _ ⟨⟨undoable, reaches⟩, gone⟩ => ⟨undoable, reaches, fun near => ?_⟩
      by_contra present
      have held := (near.holds_iff undoable.tree undoable.working allows).mpr present
      rw [placement, held] at gone
      cases gone
  | true =>
      refine Leads.remove (fun disk _ place bytes ⟨⟨undoable, reaches⟩, _⟩ found file => ?_)
        fun _ _ _ => trivial
      obtain ⟨near, rfl⟩ :=
        Reaches.of_locate undoable.working allows.nonempty allows.descending found
      have notDirectory : disk.entry? (site.target move.segments) ≠ some .directory := by
        rw [target, file]
        intro same
        cases same
      refine ⟨undoable.takeAway orderly, fun _ => near.erase fresh undoable.tree undoable.working
        allows.target_ne_nil notDirectory, fun _ => ?_⟩
      rw [← target, entry?_erase _ allows.target_ne_nil, if_pos (List.prefix_refl _)]

theorem Freed.putBack (fresh : site.Fresh) {segments : List String}
    (orderly : site.Orderly (done ++ [⟨segments, true⟩])) {disk after : Disk} {a b : Place}
    (freed : site.Freed done ⟨segments, true⟩ disk)
    (source : disk.locate (site.asidePath segments) = .ok a)
    (target : disk.locate (site.output.descend segments) = .ok b)
    (moved : a = b ∧ after = disk ∨ Apart a b ∧ after = disk.transfer a b) :
    site.Undoable after done ∧ site.Reaches after := by
  have allows : site.Allows segments := orderly.last
  have working := freed.undoable.working
  have tree := freed.undoable.tree
  have apart := (allows.apart_aside segments).symm
  have parent := locate_parent tree target (descend_segments_ne_nil _ allows.nonempty)
  obtain ⟨reaches, rfl⟩ := Reaches.of_locate working allows.nonempty allows.descending target
  obtain rfl : a = site.aside segments :=
    (Reaches.of_locate_staged fresh allows (by decide) working source).2
  rcases moved with ⟨same, -⟩ | ⟨-, rfl⟩
  · exact absurd same apart.ne
  refine ⟨freed.undoable.putBack orderly (parent allows.target_ne_nil), ?_⟩
  have away : disk.entry? (site.target segments) ≠ some .directory := by
    rw [freed.absent reaches]
    intro same
    cases same
  exact reaches.transfer fresh tree working apart (List.prefix_append ..) away

theorem restore_leads (tree : site.origin.IsTree) (fresh : site.Fresh)
    (orderly : site.Orderly (done ++ [move])) :
    Leads (fun disk _ => site.Undoable disk (done ++ [move]) ∧
        (move.replaced = false → site.Reaches disk))
      (restore (site.placement move))
      (fun _ disk _ => site.Undoable disk done ∧ site.Reaches disk) (fun _ _ => True) := by
  obtain ⟨segments, replaced⟩ := move
  refine (clear_leads fresh orderly).bind fun _ => ?_
  cases replaced with
  | false =>
      refine Leads.pure fun disk _ freed => ?_
      have reaches := freed.reaches rfl
      exact ⟨freed.undoable.dropUnused tree (freed.absent reaches), reaches⟩
  | true =>
      exact Leads.move (fun _ _ _ _ _ freed source target moved =>
        freed.putBack fresh orderly source target moved) fun _ _ _ => trivial

end Site

/-! Rolling back. -/

theorem restoreNext_quiet {state : Drive × Log} {placement : Placement}
    (quiet : (restoreNext state placement).2 = #[]) :
    state.2 = #[] ∧ ∃ progress, (restore placement).run ⟨state.1, []⟩ = (.ok (), progress) ∧
      restoreNext state placement = (progress.drive, #[]) := by
  rw [restoreNext] at quiet ⊢
  revert quiet
  rcases (restore placement).run ⟨state.1, []⟩ with ⟨result, progress⟩
  intro quiet
  cases result with
  | ok _ => exact ⟨quiet, progress, rfl, Prod.ext rfl quiet⟩
  | error fault => simp at quiet

theorem foldl_restoreNext_quiet {placements : List Placement} {state : Drive × Log}
    (quiet : (placements.foldl restoreNext state).2 = #[]) : state.2 = #[] := by
  induction placements generalizing state with
  | nil => exact quiet
  | cons placement placements ih => exact (restoreNext_quiet (ih quiet)).1

namespace Site

variable {site : Site}

theorem foldl_restoreNext (tree : site.origin.IsTree) (fresh : site.Fresh) {done : List Move}
    (orderly : site.Orderly done) {drive : Drive} (undoable : site.Undoable drive.disk done)
    (reaches : site.Settled drive.disk done ∨
      ∃ front segments, done = front ++ [⟨segments, true⟩])
    (quiet : ((done.map site.placement).reverse.foldl restoreNext (drive, #[])).2 = #[]) :
    site.Standing [] ((done.map site.placement).reverse.foldl restoreNext (drive, #[])).1.disk
      [] := by
  induction done using List.reverseRecOn generalizing drive with
  | nil =>
      rcases reaches with settled | ⟨front, _, none⟩
      · exact ⟨rfl, undoable, settled⟩
      · simp at none
  | append_singleton done move ih =>
      rw [List.map_append, List.reverse_append, List.map_singleton, List.reverse_singleton,
        List.singleton_append, List.foldl_cons] at quiet ⊢
      obtain ⟨-, progress, ran, next⟩ := restoreNext_quiet (foldl_restoreNext_quiet quiet)
      have near : move.replaced = false → site.Reaches drive.disk := by
        intro unused
        rcases reaches with settled | ⟨front, segments, same⟩
        · exact settled.reaches.resolve_right (by simp)
        · rw [List.append_singleton_inj.mp same |>.2] at unused
          cases unused
      have restored := restore_leads tree fresh orderly ⟨drive, []⟩ ⟨undoable, near⟩
      rw [ran] at restored
      rw [next] at quiet ⊢
      exact ih orderly.front restored.1 (.inl (restored.2.settled _)) quiet

theorem Standing.kept_removeStaging (fresh : site.Fresh) {drive : Drive}
    (standing : site.Standing [] drive.disk [])
    (quiet : (removeStaging drive site.stagingPath).2 = #[]) (place : Place) :
    (site.staging <+: place →
      Disk.entry? (removeStaging drive site.stagingPath).1.disk place = none) ∧
    (¬ site.staging <+: place → Kept (site.origin.entry? place)
      ( Disk.entry? (removeStaging drive site.stagingPath).1.disk place)) := by
  rw [standing.entry?_removeStaging fresh quiet]
  refine ⟨fun inside => if_pos inside, fun away => ?_⟩
  rw [if_neg away]
  exact standing.undoable.outside place away fun _ inside => absurd inside List.not_mem_nil

end Site

theorem emit_refused {drive : Drive} {output : FilePath} {stagingName : String}
    {texts : List (String × String)} {fault : DiskFault}
    (refused : (attempt drive output stagingName texts).1 = .error fault) :
    emit drive output stagingName texts =
      let restored := rollBack (attempt drive output stagingName texts).2
      let removed := removeStaging restored.1 (output.join (.ofText stagingName))
      ⟨.error (.emission output.text (some (.disk fault))), removed.1, restored.2 ++ removed.2⟩ := by
  rw [emit]
  revert refused
  rcases attempt drive output stagingName texts with ⟨result, progress⟩
  rintro rfl
  rfl

end Emission

namespace FileEmitter

open Emission

/-- An emission of which a step is refused, and which can undo what it did and clean up behind it,
leaves every file as it was, whatever step that is: at most there are new directories, and none of them
is the staging one. -/
theorem emit_atomic (emitter : FileEmitter) (drive : Drive) (stagingName : String)
    (texts : List (String × String)) (tree : drive.disk.IsTree)
    (working : drive.disk.entry? drive.disk.workingDirectory = some .directory)
    (fresh : Site.Fresh ⟨drive.disk, emitter.output, stagingName⟩)
    (names : ∀ text ∈ texts, Site.IsArtifactName text.1)
    (unused : ∀ text ∈ texts, stagingName ∉ (FilePath.ofText text.1).segments)
    (distinct : (texts.map Prod.fst).Nodup) {fault : DiskFault}
    (refused : (attempt drive emitter.output stagingName texts).1 = .error fault)
    (quiet : (emitter.emit drive stagingName texts).1.log = #[]) :
    (emitter.emit drive stagingName texts).1.result =
        .error (.emission emitter.output.text (some (.disk fault))) ∧
      (∀ place bytes,
        Disk.entry? (emitter.emit drive stagingName texts).1.drive.disk place = some (.file bytes) ↔
          drive.disk.entry? place = some (.file bytes)) ∧
      (∀ place, drive.disk.entry? place = some .directory →
        Disk.entry? (emitter.emit drive stagingName texts).1.drive.disk place = some .directory) ∧
      (∀ place, Site.staging ⟨drive.disk, emitter.output, stagingName⟩ <+: place →
        Disk.entry? (emitter.emit drive stagingName texts).1.drive.disk place = none) ∧
      (emitter.emit drive stagingName texts).2 = emitter := by
  let site : Site := ⟨drive.disk, emitter.output, stagingName⟩
  have absent : ∀ place, site.staging <+: place → drive.disk.entry? place = none := by
    rintro _ ⟨rel, rfl⟩
    exact tree.absent_below fresh.absent rel
  have start : site.Standing [] drive.disk [] := .start fresh tree working
  have allowed : ∀ text ∈ texts, site.Allows (segmentsOf text.1) := fun text inside =>
    ⟨(names text inside).nonempty, (names text inside).descending, unused text inside⟩
  have broken : Outcome _ site.Broken (attempt drive emitter.output stagingName texts) :=
    Site.writeAll_leads fresh names allowed distinct ⟨drive, []⟩ start
  have emitted : emitter.emit drive stagingName texts =
      (let restored := rollBack (attempt drive emitter.output stagingName texts).2
      let removed := removeStaging restored.1 site.stagingPath
      (⟨.error (.emission emitter.output.text (some (.disk fault))), removed.1,
        restored.2 ++ removed.2⟩, emitter)) := by
    rw [FileEmitter.emit, Emission.emit_refused refused]
    rfl
  rw [emitted] at quiet ⊢
  obtain ⟨undone, removed⟩ := Array.append_eq_empty_iff.mp quiet
  clear quiet emitted
  -- What was done up to the refusal is a list of moves, and taking them back restores the disk.
  revert refused undone removed broken
  rcases attempt drive emitter.output stagingName texts with ⟨result, progress⟩
  rintro rfl ⟨done, placed, orderly, undoable, reaches⟩ undone removed
  rw [rollBack, placed] at undone removed ⊢
  have restored := Site.foldl_restoreNext tree fresh orderly undoable reaches undone
  have ended := restored.kept_removeStaging fresh removed
  refine ⟨rfl, fun place bytes => ?_, fun place directory => ?_, fun place inside => ?_, rfl⟩
  · by_cases inside : site.staging <+: place
    · rw [absent place inside]
      exact ⟨fun file => ((ended place).1 inside).symm.trans file, fun file => by cases file⟩
    · exact ((ended place).2 inside).file_iff
  · have away : ¬ site.staging <+: place := fun inside => by
      rw [absent place inside] at directory
      cases directory
    rcases (ended place).2 away with same | ⟨none, -⟩
    · exact same.trans directory
    · exact absurd (directory.symm.trans none) (Option.some_ne_none _)
  · exact (ended place).1 inside

/-- A drive with a file `out/a` that refuses the seventh step. -/
def failingDrive : Drive :=
  ⟨⟨[(["out"], .directory), (["out", "a"], .file "old".toUTF8)], []⟩, some ⟨6, .notEmpty, none⟩⟩

theorem failingDrive_isTree : failingDrive.disk.IsTree := .of_entries (by decide)

/-- The new file is not moved to `out/a`, and the old one is back. -/
theorem emit_atomic_last_move :
    (∃ fault, (emit ⟨⟨false, ["out"]⟩, []⟩ failingDrive ".s" [("a", "new")]).1.result =
        .error (.emission "out" (some (.disk fault)))) ∧
      Disk.entry? (emit ⟨⟨false, ["out"]⟩, []⟩ failingDrive ".s" [("a", "new")]).1.drive.disk
        ["out", "a"] = some (.file "old".toUTF8) := by
  have plain : FilePath.ofText ".s" = ⟨false, [".s"]⟩ := rfl
  have fresh : Site.Fresh ⟨failingDrive.disk, ⟨false, ["out"]⟩, ".s"⟩ :=
    ⟨plain, by decide, by decide, by decide, by decide⟩
  have named : Site.IsArtifactName "a" := ⟨rfl, by decide, by decide, rfl⟩
  have refused : (attempt failingDrive ⟨false, ["out"]⟩ ".s" [("a", "new")]).1 =
      .error ⟨.notEmpty, ⟨false, ["out", ".s", "next", "a"]⟩, some ⟨false, ["out", "a"]⟩⟩ := by
    decide +kernel
  have quiet : (emit ⟨⟨false, ["out"]⟩, []⟩ failingDrive ".s" [("a", "new")]).1.log = #[] := by
    decide +kernel
  have outputText : (⟨false, ["out"]⟩ : FilePath).text = "out" := by decide +kernel
  obtain ⟨result, files, -⟩ := emit_atomic ⟨⟨false, ["out"]⟩, []⟩ failingDrive ".s"
    [("a", "new")] failingDrive_isTree rfl fresh (by simpa using named) (by decide) (by decide)
    refused quiet
  rw [outputText] at result
  exact ⟨⟨_, result⟩, (files _ _).mpr rfl⟩

end FileEmitter

end ApiCompiler
