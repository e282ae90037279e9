import ApiCompiler.Proofs.Emission.Atomicity
import ApiCompiler.Proofs.World.Failing

/-!
An emission that comes to its end leaves exactly the texts it was given, each where it belongs, and
otherwise every file that was not in their way.
-/

namespace ApiCompiler

namespace Emission

open Disk

theorem emit_completed {drive : Drive} {output : FilePath} {stagingName : String}
    {texts : List (String × String)} {written : List String}
    (returned : (emit drive output stagingName texts).result = .ok written) :
    (attempt drive output stagingName texts).1 = .ok () ∧
      written = (attempt drive output stagingName texts).2.placed.map
        (fun placement => placement.destination.text) ∧
      ∃ removed, removed = removeStaging (attempt drive output stagingName texts).2.drive
          (output.join (.ofText stagingName)) ∧
        (emit drive output stagingName texts).drive = removed.1 ∧
        removed.2.toList <+: (emit drive output stagingName texts).log.toList := by
  revert returned
  rw [emit]
  rcases attempt drive output stagingName texts with ⟨_ | _, progress⟩
  · intro failed
    cases failed
  · rintro ⟨⟩
    refine ⟨rfl, rfl, _, rfl, rfl, ?_⟩
    rw [Array.toList_append]
    exact List.prefix_append ..

/-- What a removal tells is that it was refused. -/
theorem removeStaging_quiet {drive : Drive} {staging : FilePath}
    (unwarned : ∀ message ∈ (removeStaging drive staging).2.toList, message.level ≠ .warning) :
    (removeStaging drive staging).2 = #[] := by
  revert unwarned
  rw [removeStaging]
  rcases (removeTree (drive.disk.height + 1) staging).run ⟨drive, []⟩ with ⟨_ | _, progress⟩
  · exact fun unwarned => absurd rfl (unwarned _ (List.mem_singleton_self _))
  · exact fun _ => rfl

namespace Site

variable {site : Site} {drive : Drive} {placed : List Placement} {texts : List (String × String)}
  (names : ∀ text ∈ texts, IsArtifactName text.1)
  (delivering : site.Delivering texts texts drive.disk placed)
include delivering

theorem Delivering.underway : ∃ done,
    done.map Move.segments = texts.map (fun text => segmentsOf text.1) ∧
      site.Underway done texts [] drive.disk placed := by
  obtain ⟨done, back, whole, same, underway⟩ := delivering
  obtain rfl : back = [] := List.append_cancel_left (whole.trans (List.append_nil texts).symm)
  exact ⟨done, same, underway⟩

include names in
theorem Delivering.destinations : placed.map (fun placement => placement.destination.text) =
    texts.map fun text => (site.output.join (.ofText text.1)).text := by
  obtain ⟨done, same, underway⟩ := delivering.underway
  calc placed.map (fun placement => placement.destination.text)
      = (done.map Move.segments).map fun segments => (site.output.descend segments).text := by
        rw [underway.standing.placed, List.map_map, List.map_map]
        rfl
    _ = texts.map fun text => (site.output.descend (segmentsOf text.1)).text := by
        rw [same, List.map_map]
        rfl
    _ = texts.map fun text => (site.output.join (.ofText text.1)).text :=
        List.map_congr_left fun text inside => by rw [join_ofText (names text inside).relative]

variable (fresh : site.Fresh) (allowed : ∀ text ∈ texts, site.Allows (segmentsOf text.1))
  (quiet : (removeStaging drive site.stagingPath).2 = #[])
include fresh allowed quiet

theorem Delivering.file_iff (tree : site.origin.IsTree) (place : Place) (bytes : ByteArray) :
    Disk.entry? (removeStaging drive site.stagingPath).1.disk place = some (.file bytes) ↔
      (∃ text ∈ texts, place = site.target (segmentsOf text.1) ∧ bytes = text.2.toUTF8) ∨
        site.origin.entry? place = some (.file bytes) ∧
          ∀ text ∈ texts, ¬ site.target (segmentsOf text.1) <+: place := by
  obtain ⟨done, same, standing, carried⟩ := delivering.underway
  rw [standing.entry?_removeStaging fresh quiet]
  by_cases staged : site.staging <+: place
  · rw [if_pos staged]
    refine ⟨nofun, ?_⟩
    rintro (⟨text, inside, rfl, -⟩ | ⟨file, -⟩)
    · exact absurd staged (by simpa using (allowed text inside).outside [])
    · obtain ⟨rel, rfl⟩ := staged
      rw [tree.absent_below fresh.absent rel] at file
      cases file
  rw [if_neg staged]
  by_cases below : ∃ text ∈ texts, site.target (segmentsOf text.1) <+: place
  · -- At the target of a text there is its file, and below a file there is nothing.
    obtain ⟨text, inside, rel, rfl⟩ := below
    have here := carried.delivered text inside
    constructor
    · intro file
      have direct : rel = [] := by
        by_contra deeper
        rw [standing.undoable.tree.below deeper (by rw [here]; nofun)] at file
        cases file
      subst direct
      rw [List.append_nil, here] at file
      cases file
      exact .inl ⟨text, inside, List.append_nil _, rfl⟩
    · rintro (⟨other, among, same, rfl⟩ | ⟨-, away⟩)
      · rw [same]
        exact carried.delivered other among
      · exact absurd (List.prefix_append ..) (away text inside)
  · push Not at below
    have others : ∀ move ∈ done, ¬ site.target move.segments <+: place := by
      intro move inside
      have listed : move.segments ∈ texts.map fun text => segmentsOf text.1 :=
        same ▸ List.mem_map_of_mem inside
      obtain ⟨text, among, segments⟩ := List.mem_map.mp listed
      exact segments ▸ below text among
    rw [(standing.undoable.outside place staged others).file_iff]
    refine ⟨fun file => .inr ⟨file, below⟩, ?_⟩
    rintro (⟨text, inside, rfl, -⟩ | ⟨file, -⟩)
    · exact absurd (List.prefix_refl _) (below text inside)
    · exact file

include names in
theorem Delivering.read {text : String × String} (inside : text ∈ texts) :
    Disk.read (removeStaging drive site.stagingPath).1.disk (site.output.join (.ofText text.1)) =
      .ok text.2.toUTF8 := by
  obtain ⟨done, same, standing, carried⟩ := delivering.underway
  have allows := allowed text inside
  have some : done ≠ [] := by
    rintro rfl
    rw [List.map_nil, eq_comm, List.map_eq_nil_iff] at same
    rw [same] at inside
    cases inside
  have reaches := standing.settled.reaches.resolve_right fun unsettled => some unsettled.1
  have there : Disk.entry? (removeStaging drive site.stagingPath).1.disk
      (site.target (segmentsOf text.1)) = Option.some (.file text.2.toUTF8) := by
    rw [standing.entry?_removeStaging fresh quiet, if_neg (by simpa using allows.outside [])]
    exact carried.delivered text inside
  have found := reaches.locate_of_present standing.undoable.tree allows.nonempty allows.descending
    (by rw [← target, carried.delivered text inside]; exact Option.some_ne_none _)
  rw [Disk.read, join_ofText (names text inside).relative,
    standing.locate_removeStaging fresh quiet allows.fresh found, ← target]
  dsimp only
  rw [there]

end Site

end Emission

namespace FileEmitter

open Emission

/--
Emissions one after the other, each of its texts on a drive as it is by then and through a staging
directory of its own: the lists that were returned, and the emitter afterwards.
-/
def emitAll (emitter : FileEmitter) :
    List (Drive × String × List (String × String)) → List (List String) × FileEmitter
  | [] => ([], emitter)
  | (drive, stagingName, texts) :: later =>
      let (report, emitter) := emitter.emit drive stagingName texts
      let (returned, emitter) := emitter.emitAll later
      (report.result.toOption.toList ++ returned, emitter)

section Emit

variable (emitter : FileEmitter) (drive : Drive) (stagingName : String)
  (texts : List (String × String))

theorem emit_fst : (emitter.emit drive stagingName texts).1 =
    Emission.emit drive emitter.output stagingName texts := by
  rw [emit]
  split <;> rfl

theorem emit_snd : (emitter.emit drive stagingName texts).2 =
    { emitter with written := emitter.written ++
        (emitter.emit drive stagingName texts).1.result.toOption.toList.flatten } := by
  rw [emit_fst, emit]
  split
  · rename_i written returned
    simp [returned, Except.toOption]
  · rename_i failure returned
    simp [returned, Except.toOption]

end Emit

theorem emitAll_snd (emitter : FileEmitter)
    (emissions : List (Drive × String × List (String × String))) :
    (emitter.emitAll emissions).2 =
      { emitter with written := emitter.written ++ (emitter.emitAll emissions).1.flatten } := by
  induction emissions generalizing emitter with
  | nil => simp [emitAll]
  | cons emission later ih =>
      obtain ⟨drive, stagingName, texts⟩ := emission
      rw [emitAll]
      dsimp only
      rw [ih, emit_snd]
      simp

/--
An emission that returns, and of which no step was refused, has put every text at its own place and
changed no other file, but for taking away those below a new one; nothing is left of the staging
directory. It returns the paths in the order of the texts, and they are added to what earlier emissions
returned.
-/
theorem emit_exact (output : FilePath)
    (earlier : List (Drive × String × List (String × String))) (drive : Drive) (stagingName : String)
    (texts : List (String × String)) (tree : drive.disk.IsTree)
    (working : drive.disk.entry? drive.disk.workingDirectory = some .directory)
    (fresh : Site.Fresh ⟨drive.disk, output, stagingName⟩)
    (names : ∀ text ∈ texts, Site.IsArtifactName text.1)
    (unused : ∀ text ∈ texts, stagingName ∉ (FilePath.ofText text.1).segments)
    (distinct : (texts.map Prod.fst).Nodup) {written : List String}
    (returned : (emit (emitAll ⟨output, []⟩ earlier).2 drive stagingName texts).1.result =
      .ok written)
    (quiet : ∀ message ∈
      (emit (emitAll ⟨output, []⟩ earlier).2 drive stagingName texts).1.log.toList,
      message.level ≠ .warning) :
    let site : Site := ⟨drive.disk, output, stagingName⟩
    let after := emit (emitAll ⟨output, []⟩ earlier).2 drive stagingName texts
    (∀ text ∈ texts,
        Disk.read after.1.drive.disk (output.join (.ofText text.1)) = .ok text.2.toUTF8) ∧
      (∀ place bytes, Disk.entry? after.1.drive.disk place = some (.file bytes) ↔
        (∃ text ∈ texts, place = site.target (segmentsOf text.1) ∧ bytes = text.2.toUTF8) ∨
          drive.disk.entry? place = some (.file bytes) ∧
            ∀ text ∈ texts, ¬ site.target (segmentsOf text.1) <+: place) ∧
      (∀ place, site.staging <+: place → Disk.entry? after.1.drive.disk place = none) ∧
      written = texts.map (fun text => (output.join (.ofText text.1)).text) ∧
      after.2.written = (emitAll ⟨output, []⟩ earlier).1.flatten ++ written := by
  intro site after
  have here : (emitAll ⟨output, []⟩ earlier).2.output = output := by rw [emitAll_snd]
  have reported : (emit (emitAll ⟨output, []⟩ earlier).2 drive stagingName texts).1 =
      Emission.emit drive output stagingName texts := by rw [emit_fst, here]
  have grown := emit_snd (emitAll ⟨output, []⟩ earlier).2 drive stagingName texts
  rw [returned] at grown
  rw [reported] at returned quiet
  obtain ⟨completed, rfl, removed, same, drives, logged⟩ := emit_completed returned
  have removedAll : removed.2 = #[] := by
    subst same
    exact removeStaging_quiet fun message told => quiet message (logged.subset told)
  have allowed : ∀ text ∈ texts, site.Allows (segmentsOf text.1) := fun text inside =>
    ⟨(names text inside).nonempty, (names text inside).descending, unused text inside⟩
  have led : Outcome (fun _ => site.Delivering texts texts) site.Broken
      (attempt drive output stagingName texts) :=
    Site.writeAll_leads fresh names allowed distinct ⟨drive, []⟩ (.start fresh tree working)
  rw [show after.1.drive = _ from (congrArg Report.drive reported).trans drives,
    show after.2 = _ from grown]
  revert completed same led
  rcases attempt drive output stagingName texts with ⟨result, progress⟩
  rintro rfl rfl delivering
  refine ⟨fun text inside => delivering.read names fresh allowed removedAll inside,
    delivering.file_iff fresh allowed removedAll tree, fun place inside => ?_,
    delivering.destinations names, ?_⟩
  · obtain ⟨_, -, standing, -⟩ := Site.Delivering.underway delivering
    exact (standing.entry?_removeStaging fresh removedAll place).trans (if_pos inside)
  · rw [emitAll_snd]
    simp [Except.toOption]

/-- A drive with a file `out/a`, a directory at `out/b`, and another file beside them. -/
def usedDrive : Drive :=
  ⟨⟨[(["out"], .directory), (["out", "a"], .file "old".toUTF8), (["out", "b"], .directory),
    (["out", "b", "c"], .file "below".toUTF8), (["out", "z"], .file "other".toUTF8)], []⟩, none⟩

def usedTexts : List (String × String) := [("a", "new"), ("b", "file"), ("d/e", "deep")]

def earlierEmissions : List (Drive × String × List (String × String)) :=
  [(usedDrive, ".r", [("y", "first")])]

/-- The new files take the places of `out/a` and of the directory, and `out/z` stays. -/
theorem emit_exact_used :
    ∃ after, after = emit (emitAll ⟨⟨false, ["out"]⟩, []⟩ earlierEmissions).2 usedDrive ".s" usedTexts ∧
      Disk.read after.1.drive.disk (FilePath.join ⟨false, ["out"]⟩ (.ofText "d/e")) =
        .ok "deep".toUTF8 ∧
      Disk.entry? after.1.drive.disk ["out", "z"] = some (.file "other".toUTF8) ∧
      (∀ bytes, Disk.entry? after.1.drive.disk ["out", "b", "c"] ≠ some (.file bytes)) ∧
      after.2.written = ["out/y", "out/a", "out/b", "out/d/e"] := by
  have plain : FilePath.ofText ".s" = ⟨false, [".s"]⟩ := rfl
  have fresh : Site.Fresh ⟨usedDrive.disk, ⟨false, ["out"]⟩, ".s"⟩ :=
    ⟨plain, by decide, by decide, by decide, by decide⟩
  have names : ∀ text ∈ usedTexts, Site.IsArtifactName text.1 := by
    have first : Site.IsArtifactName "a" := ⟨rfl, by decide, by decide, rfl⟩
    have second : Site.IsArtifactName "b" := ⟨rfl, by decide, by decide, rfl⟩
    have third : Site.IsArtifactName "d/e" := ⟨rfl, by decide, by decide, rfl⟩
    simp [usedTexts, first, second, third]
  have returned : (emit (emitAll ⟨⟨false, ["out"]⟩, []⟩ earlierEmissions).2
      usedDrive ".s" usedTexts).1.result = .ok ["out/a", "out/b", "out/d/e"] := by
    refine eq_ok_of_toOption ?_
    rw [emit_fst, emitAll_snd]
    decide +kernel
  have quiet : ∀ message ∈ (emit (emitAll ⟨⟨false, ["out"]⟩, []⟩ earlierEmissions).2
      usedDrive ".s" usedTexts).1.log.toList, message.level ≠ .warning := by
    rw [emit_fst, emitAll_snd]
    decide +kernel
  obtain ⟨read, files, -, -, emitted⟩ := emit_exact ⟨false, ["out"]⟩
    earlierEmissions usedDrive ".s" usedTexts (.of_entries (by decide)) rfl fresh
    names (by decide) (by decide) returned quiet
  refine ⟨_, rfl, read ("d/e", "deep") (by decide), ?_, ?_, ?_⟩
  · exact (files ["out", "z"] "other".toUTF8).mpr (.inr ⟨rfl, by decide +kernel⟩)
  · intro bytes file
    rcases (files _ bytes).mp file with ⟨text, inside, same, -⟩ | ⟨-, away⟩
    · revert text
      decide +kernel
    · exact away ("b", "file") (by decide) (by decide +kernel)
  · rw [emitted]
    decide +kernel

end FileEmitter

end ApiCompiler
