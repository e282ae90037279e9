import ApiCompiler.Proofs.Emission.Carrying
import ApiCompiler.Proofs.Emission.Removal

/-!
Staging and moving: wherever they break off, what was done so far can be undone; and if they come to
their end, every text is at its target.
-/

namespace ApiCompiler.Emission

open Disk

namespace Site

variable {site : Site}

/-- Where an emission may break off. If something was just put aside, the way to the output directory
may have led through it. -/
def Broken (site : Site) : Assertion := fun disk placed =>
  ∃ done, placed = done.map site.placement ∧ site.Orderly done ∧ site.Undoable disk done ∧
    (site.Settled disk done ∨ ∃ front segments, done = front ++ [⟨segments, true⟩])

/-- What is known between two moves. -/
structure Standing (site : Site) (done : List Move) (disk : Disk) (placed : List Placement) :
    Prop where
  placed : placed = done.map site.placement
  undoable : site.Undoable disk done
  settled : site.Settled disk done

theorem Orderly.nil : site.Orderly [] := ⟨nofun, .nil⟩

theorem Standing.broken {done : List Move} (orderly : site.Orderly done) {disk : Disk}
    {placed : List Placement} (standing : site.Standing done disk placed) :
    site.Broken disk placed :=
  ⟨done, standing.placed, orderly, standing.undoable, .inl standing.settled⟩

theorem Standing.start (fresh : site.Fresh) (tree : site.origin.IsTree)
    (working : site.origin.entry? site.origin.workingDirectory = some .directory) :
    site.Standing [] site.origin [] := by
  have absent : ∀ place, site.staging <+: place → site.origin.entry? place = none := by
    rintro _ ⟨rel, rfl⟩
    exact tree.absent_below fresh.absent rel
  have anchored : site.origin.Anchored site.output := by
    rw [Disk.Anchored, Disk.start]
    split
    · rfl
    · exact working
  exact ⟨rfl, Undoable.refl tree, anchored, .inr ⟨rfl, absent⟩⟩

theorem Standing.made {done : List Move} (fresh : site.Fresh) {disk after : Disk}
    {placed : List Placement} (standing : site.Standing done disk placed) {names : List String}
    (descending : ".." ∉ names) (made : Made disk after (site.output.descend names)) :
    site.Standing done after placed :=
  ⟨standing.placed, standing.undoable.grow made.grown made.tree,
    standing.settled.made fresh standing.undoable.working descending made⟩

/-! The paths of an emission. -/

section Paths

variable (plain : FilePath.ofText site.stagingName = ⟨false, [site.stagingName]⟩)
include plain

variable {name : String} (relative : (FilePath.ofText name).isAbsolute = false)
include relative

omit plain in
theorem join_ofText (path : FilePath) :
    path.join (.ofText name) = path.descend (segmentsOf name) := by
  rw [FilePath.join, relative]
  rfl

theorem nextPath_eq : (nextFolder site.stagingPath).join (.ofText name) =
    site.output.descend (site.stagingName :: "next" :: segmentsOf name) := by
  have next : FilePath.ofText "next" = ⟨false, ["next"]⟩ := rfl
  rw [join_ofText relative, nextFolder, stagingPath_eq plain, next]
  simp [FilePath.join, FilePath.descend]

theorem previousPath_eq : (previousFolder site.stagingPath).join (.ofText name) =
    site.asidePath (segmentsOf name) := by
  have previous : FilePath.ofText "previous" = ⟨false, ["previous"]⟩ := rfl
  rw [join_ofText relative, previousFolder, stagingPath_eq plain, previous]
  simp [FilePath.join, FilePath.descend, asidePath]

end Paths

theorem parent_descend (path : FilePath) {names : List String} (nonempty : names ≠ []) :
    (path.descend names).parent = path.descend names.dropLast := by
  rw [FilePath.parent, FilePath.descend, List.dropLast_append_of_ne_nil nonempty,
    FilePath.descend]

theorem descend_segments_ne_nil (path : FilePath) {names : List String} (nonempty : names ≠ []) :
    (path.descend names).segments ≠ [] := by
  simp [FilePath.descend, nonempty]

/-! The end of the staging directory. -/

theorem Standing.emptied {done : List Move} {placed : List Placement} {disk : Disk}
    (standing : site.Standing done disk placed) : site.Emptied disk disk :=
  ⟨standing.undoable.tree, standing.undoable.working, standing.settled.reaches.imp_right And.right,
    fun _ _ => id, fun _ _ => rfl⟩

section Removed

variable {done : List Move} {placed : List Placement} {drive : Drive} (fresh : site.Fresh)
  (standing : site.Standing done drive.disk placed)
  (quiet : (removeStaging drive site.stagingPath).2 = #[])
include fresh standing quiet

/-- Nothing but the staging directory is taken away. -/
theorem Standing.entry?_removeStaging (place : Place) :
    Disk.entry? (removeStaging drive site.stagingPath).1.disk place =
      if site.staging <+: place then none else drive.disk.entry? place := by
  obtain ⟨emptied, gone⟩ := removeStaging_emptied fresh standing.emptied
  split
  · rename_i inside
    exact gone quiet place inside
  · rename_i outside
    exact emptied.outside place outside

/-- A path that does not lead through the staging directory still leads where it did. -/
theorem Standing.locate_removeStaging {names : List String} (unused : site.stagingName ∉ names)
    {place : Place} (found : drive.disk.locate (site.output.descend names) = .ok place) :
    Disk.locate (removeStaging drive site.stagingPath).1.disk (site.output.descend names) =
      .ok place := by
  have working := (removeStaging_emptied fresh standing.emptied).1.working
  refine locate_congr (working.trans standing.undoable.working.symm)
    (fun other visited directory => ?_) found
  have outside : ¬ site.staging <+: other := by
    intro inside
    have member : site.stagingName ∈ other := inside.subset (by simp [staging])
    rcases visited _ member with early | late
    · rw [Disk.start] at early
      split at early
      · cases early
      · exact fresh.working (standing.undoable.working ▸ early)
    · exact (List.mem_append.mp late).elim fresh.output unused
  rw [standing.entry?_removeStaging fresh quiet, if_neg outside, directory]

end Removed

/-! Making directories. -/

/-- What is known between two moves: how to undo what was done, and where the texts are. -/
structure Underway (site : Site) (done : List Move) (front back : List (String × String))
    (disk : Disk) (placed : List Placement) : Prop where
  standing : site.Standing done disk placed
  carried : site.Carried front back disk

/-- Between two moves, with the output directory in reach. -/
def Ready (site : Site) (done : List Move) (front back : List (String × String)) : Assertion :=
  fun disk placed => site.Underway done front back disk placed ∧ site.Reaches disk

theorem Underway.made (fresh : site.Fresh) {done : List Move} {front back : List (String × String)}
    {disk after : Disk} {placed : List Placement}
    (underway : site.Underway done front back disk placed) {names : List String}
    (descending : ".." ∉ names) (made : Made disk after (site.output.descend names)) :
    site.Underway done front back after placed :=
  ⟨underway.standing.made fresh descending made, underway.carried.grow made.grown⟩

theorem makeDirectories_leads (fresh : site.Fresh) {done : List Move} (orderly : site.Orderly done)
    (front back : List (String × String)) {names : List String} (descending : ".." ∉ names) :
    Leads (site.Underway done front back) (take (.makeDirectories (site.output.descend names)))
      (fun _ => site.Ready done front back) site.Broken := by
  apply Leads.makeDirectories
  · exact fun _ _ underway =>
      ⟨underway.standing.undoable.tree, underway.standing.settled.anchored⟩
  · intro disk after placed underway made directory
    have underway := underway.made fresh descending made
    exact ⟨underway, Reaches.of_isDirectory underway.standing.undoable.working descending directory⟩
  · exact fun _ _ _ underway made =>
      (underway.made fresh descending made).standing.broken orderly

/-! Staging. -/

abbrev Staged (site : Site) (texts : List (String × String)) : Assertion :=
  site.Underway [] [] texts

theorem Undoable.stage {disk : Disk} (undoable : site.Undoable disk []) {segments : List String}
    {bytes : ByteArray} (parent : disk.entry? (site.next segments).dropLast = some .directory)
    (other : disk.entry? (site.next segments) ≠ some .directory) :
    site.Undoable (disk.put (site.next segments) (.file bytes)) [] := by
  have nonroot : site.next segments ≠ [] := by simp [next]
  refine ⟨undoable.tree.put nonroot parent (.inl other), undoable.working, ?_,
    fun _ moved => absurd moved List.not_mem_nil, fun _ moved => absurd moved List.not_mem_nil⟩
  intro place away others
  have apart : place ≠ site.next segments := by
    rintro rfl
    exact away (List.prefix_append ..)
  rw [entry?_put _ nonroot, if_neg apart]
  exact undoable.outside place away others

theorem Reaches.stage {disk : Disk} (reaches : site.Reaches disk) (fresh : site.Fresh)
    (working : disk.workingDirectory = site.origin.workingDirectory) (segments : List String)
    (entry : Entry) : site.Reaches (disk.put (site.next segments) entry) := by
  refine reaches.congr fresh working rfl fun place names directory => ?_
  have apart : place ≠ site.next segments := by
    rintro rfl
    exact names (by simp [next, staging])
  rw [entry?_put _ (by simp [next]), if_neg apart, directory]

/-- A new file is below the staging directory, all of it or a part. -/
theorem Standing.put (fresh : site.Fresh) {disk : Disk} {placed : List Placement}
    (standing : site.Standing [] disk placed) {name : String}
    (allows : site.Allows (segmentsOf name)) {place : Place}
    (found : disk.locate (site.output.descend
      (site.stagingName :: "next" :: segmentsOf name)) = .ok place)
    (other : disk.entry? place ≠ some .directory) (bytes : ByteArray) :
    place = site.next (segmentsOf name) ∧
      site.Standing [] (disk.put place (.file bytes)) placed := by
  have nonroot : site.next (segmentsOf name) ≠ [] := by simp [next]
  obtain ⟨reaches, there⟩ :=
    Reaches.of_locate_staged fresh allows (by decide) standing.undoable.working found
  obtain rfl : place = site.next (segmentsOf name) := there
  have parent := locate_parent standing.undoable.tree found
    (descend_segments_ne_nil _ (by simp)) nonroot
  exact ⟨rfl, standing.placed, standing.undoable.stage parent other,
    (reaches.stage fresh standing.undoable.working _ _).settled _⟩

theorem stage_leads (fresh : site.Fresh) {texts : List (String × String)} {name : String}
    (relative : (FilePath.ofText name).isAbsolute = false)
    (allows : site.Allows (segmentsOf name))
    (new : ∀ item ∈ texts, segmentsOf item.1 ≠ segmentsOf name) (text : String) :
    Leads (site.Staged texts) (stage site.stagingPath name text)
      (fun _ => site.Staged (texts ++ [(name, text)])) site.Broken := by
  have path := nextPath_eq fresh.plain relative
  have descending : ".." ∉ (site.stagingName :: "next" :: segmentsOf name).dropLast := fun up =>
    fresh.descending_staged allows (by decide) (List.dropLast_subset _ up)
  rw [stage, path, parent_descend _ (by simp)]
  refine (makeDirectories_leads fresh .nil [] texts descending).bind fun _ => Leads.write ?_ ?_ ?_
  · rintro disk placed place ⟨staged, -⟩ found other
    obtain ⟨rfl, standing⟩ := staged.standing.put fresh allows found other text.toUTF8
    exact ⟨standing, staged.carried.stage new⟩
  · rintro disk placed place bytes ⟨staged, -⟩ found other
    exact (staged.standing.put fresh allows found other bytes).2.broken .nil
  · exact fun _ _ ready => ready.1.standing.broken .nil

/-! Moving. -/

/-- What is known when the way is free for a new file. -/
structure Cleared (site : Site) (done : List Move) (front back : List (String × String))
    (segments : List String) (replaced : Bool) (disk : Disk) : Prop where
  undoable : site.Undoable disk (done ++ [⟨segments, replaced⟩])
  reaches : replaced = false → site.Reaches disk
  absent : disk.entry? (site.target segments) = none
  carried : site.Carried front back disk

section Moving

variable {done : List Move} {front back : List (String × String)} {name text : String}
  (fresh : site.Fresh)
  (relative : (FilePath.ofText name).isAbsolute = false)
  (orderly : ∀ replaced, site.Orderly (done ++ [⟨segmentsOf name, replaced⟩]))
  (allowed : ∀ item ∈ front ++ back, site.Allows (segmentsOf item.1))
  (apart : ∀ item ∈ front ++ back, Apart (segmentsOf name) (segmentsOf item.1))

include fresh orderly allowed apart in
theorem Cleared.of_moved {disk after : Disk} {placed : List Placement} {a b : Place}
    (ready : site.Ready done front ((name, text) :: back) disk placed)
    (source : disk.locate (site.output.descend (segmentsOf name)) = .ok a)
    (target : disk.locate (site.asidePath (segmentsOf name)) = .ok b)
    (moved : a = b ∧ after = disk ∨ Apart a b ∧ after = disk.transfer a b) :
    site.Cleared done front ((name, text) :: back) (segmentsOf name) true after := by
  obtain ⟨⟨standing, carried⟩, -⟩ := ready
  have allows : site.Allows (segmentsOf name) := (orderly true).last
  have working := standing.undoable.working
  have between := allows.apart_aside (segmentsOf name)
  obtain ⟨-, rfl⟩ := Reaches.of_locate working allows.nonempty allows.descending source
  obtain rfl : b = site.aside (segmentsOf name) :=
    (Reaches.of_locate_staged fresh allows (by decide) working target).2
  rcases moved with ⟨same, -⟩ | ⟨-, rfl⟩
  · exact absurd same between.ne
  have parent := locate_parent standing.undoable.tree target
    (descend_segments_ne_nil _ (by simp)) (by simp [Site.aside])
  refine ⟨standing.undoable.setAside (orderly true) parent, (fun kept => by cases kept), ?_,
    carried.setAside allowed allows apart⟩
  have here := between.symm.outside []
  rw [List.append_nil] at here
  rw [← Site.target, entry?_transfer _ between, if_neg here, if_pos (List.prefix_refl _)]

include fresh relative orderly allowed apart in
theorem setAside_leads :
    Leads (site.Ready done front ((name, text) :: back))
      (setAside site.stagingPath name (site.output.descend (segmentsOf name)))
      (fun previous disk placed => ∃ replaced, placed = done.map site.placement ∧
        previous = (site.placement ⟨segmentsOf name, replaced⟩).previous ∧
        site.Cleared done front ((name, text) :: back) (segmentsOf name) replaced disk)
      site.Broken := by
  have allows : site.Allows (segmentsOf name) := (orderly false).last
  have descending : ".." ∉ (site.stagingName :: "previous" :: segmentsOf name).dropLast := fun up =>
    fresh.descending_staged allows (by decide) (List.dropLast_subset _ up)
  have broken : ∀ disk placed, site.Ready done front ((name, text) :: back) disk placed →
      site.Broken disk placed :=
    fun _ _ ready => ready.1.standing.broken (orderly false).front
  rw [setAside, previousPath_eq fresh.plain relative]
  refine Leads.bind (Leads.holds broken) fun present => ?_
  cases present with
  | false =>
      refine Leads.pure fun disk placed ⟨⟨⟨standing, carried⟩, reaches⟩, absent⟩ =>
        ⟨false, standing.placed, rfl, ?_⟩
      have nothing : disk.entry? (site.target (segmentsOf name)) = none := by
        by_contra present
        rw [(reaches.holds_iff standing.undoable.tree standing.undoable.working allows).mpr present]
          at absent
        cases absent
      exact ⟨standing.undoable.addUnused (orderly false) nothing, fun _ => reaches, nothing, carried⟩
  | true =>
      rw [if_pos rfl, asidePath]
      dsimp only
      rw [parent_descend _ (by simp)]
      have made := makeDirectories_leads fresh (orderly false).front front ((name, text) :: back)
        descending
      have moved : Leads (site.Ready done front ((name, text) :: back))
          (take (.move (site.output.descend (segmentsOf name)) (site.asidePath (segmentsOf name))))
          (fun _ disk placed => placed = done.map site.placement ∧
            site.Cleared done front ((name, text) :: back) (segmentsOf name) true disk)
          site.Broken :=
        Leads.move (fun _ _ _ _ _ ready source target moved => ⟨ready.1.standing.placed,
          Cleared.of_moved fresh orderly allowed apart ready source target moved⟩) broken
      refine (made.bind fun _ => moved.bind fun _ => Leads.pure ?_).mono
        (fun _ _ ⟨⟨underway, _⟩, _⟩ => underway) (fun _ _ _ => id) (fun _ _ => id)
      exact fun _ _ ⟨placed, cleared⟩ => ⟨true, placed, rfl, cleared⟩

include orderly in
theorem Cleared.broken {replaced : Bool} {disk : Disk}
    (cleared : site.Cleared done front back (segmentsOf name) replaced disk) :
    site.Broken disk (List.map site.placement (done ++ [⟨segmentsOf name, replaced⟩])) := by
  refine ⟨_, rfl, orderly replaced, cleared.undoable, ?_⟩
  cases replaced with
  | false => exact .inl ((cleared.reaches rfl).settled _)
  | true => exact .inr ⟨done, _, rfl⟩

include fresh orderly allowed apart in
theorem Cleared.moveNext {replaced : Bool} {disk after : Disk} {a b : Place}
    (cleared : site.Cleared done front ((name, text) :: back) (segmentsOf name) replaced disk)
    (source : disk.locate
      (site.output.descend (site.stagingName :: "next" :: segmentsOf name)) = .ok a)
    (target : disk.locate (site.output.descend (segmentsOf name)) = .ok b)
    (moved : a = b ∧ after = disk ∨ Apart a b ∧ after = disk.transfer a b) :
    site.Underway (done ++ [⟨segmentsOf name, replaced⟩]) (front ++ [(name, text)]) back after
      (List.map site.placement (done ++ [⟨segmentsOf name, replaced⟩])) := by
  have allows : site.Allows (segmentsOf name) := (orderly true).last
  have working := cleared.undoable.working
  have tree := cleared.undoable.tree
  have between := (allows.apart_next (segmentsOf name)).symm
  have parent := locate_parent tree target (descend_segments_ne_nil _ allows.nonempty)
  obtain ⟨reaches, rfl⟩ := Reaches.of_locate working allows.nonempty allows.descending target
  obtain rfl : a = site.next (segmentsOf name) :=
    (Reaches.of_locate_staged fresh allows (by decide) working source).2
  rcases moved with ⟨same, -⟩ | ⟨-, rfl⟩
  · exact absurd same between.ne
  have away : disk.entry? (site.target (segmentsOf name)) ≠ some .directory := by
    simp [cleared.absent]
  have settled := (reaches.transfer fresh tree working between (List.prefix_append ..) away).settled
    (done ++ [⟨segmentsOf name, replaced⟩])
  exact ⟨⟨rfl, cleared.undoable.moveNext (orderly replaced) (parent allows.target_ne_nil), settled⟩,
    cleared.carried.moveNext allowed allows apart⟩

include fresh relative orderly allowed apart in
theorem place_leads :
    Leads (site.Underway done front ((name, text) :: back))
      (place site.output site.stagingPath name)
      (fun _ disk placed => ∃ replaced, site.Underway (done ++ [⟨segmentsOf name, replaced⟩])
        (front ++ [(name, text)]) back disk placed) site.Broken := by
  have allows : site.Allows (segmentsOf name) := (orderly false).last
  have descending : ".." ∉ (segmentsOf name).dropLast := fun up =>
    allows.descending (List.dropLast_subset _ up)
  rw [place, join_ofText relative, nextPath_eq fresh.plain relative, parent_descend _ allows.nonempty]
  refine (makeDirectories_leads fresh (orderly false).front _ _ descending).bind fun _ =>
    (setAside_leads fresh relative orderly allowed apart).bind fun previous => ?_
  have noted : Leads (fun disk placed => ∃ replaced, placed = done.map site.placement ∧
      previous = (site.placement ⟨segmentsOf name, replaced⟩).previous ∧
        site.Cleared done front ((name, text) :: back) (segmentsOf name) replaced disk)
      (modify fun progress => { progress with
        placed := progress.placed ++ [⟨site.output.descend (segmentsOf name), previous⟩] })
      (fun _ disk placed => ∃ replaced,
        placed = List.map site.placement (done ++ [⟨segmentsOf name, replaced⟩]) ∧
          site.Cleared done front ((name, text) :: back) (segmentsOf name) replaced disk)
      site.Broken := by
    rintro progress ⟨replaced, placed, rfl, cleared⟩
    refine ⟨replaced, ?_, cleared⟩
    rw [List.map_append, ← placed]
    rfl
  refine noted.bind fun _ => Leads.move ?_ ?_
  · rintro disk after _ a b ⟨replaced, rfl, cleared⟩ source target moved
    exact ⟨replaced, cleared.moveNext fresh orderly allowed apart source target moved⟩
  · rintro disk _ ⟨replaced, rfl, cleared⟩
    exact cleared.broken orderly

end Moving

/-! All of the texts. -/

/-- What a text may be named by: a relative path that leads down, in its plain spelling. -/
structure IsArtifactName (name : String) : Prop where
  relative : (FilePath.ofText name).isAbsolute = false
  nonempty : (FilePath.ofText name).segments ≠ []
  descending : ".." ∉ (FilePath.ofText name).segments
  normal : (FilePath.ofText name).text = name

theorem IsArtifactName.eq_of_segments {first second : String} (one : IsArtifactName first)
    (other : IsArtifactName second) (same : segmentsOf first = segmentsOf second) :
    first = second := by
  have paths : FilePath.ofText first = FilePath.ofText second := by
    rw [FilePath.mk.injEq]
    exact ⟨one.relative.trans other.relative.symm, same⟩
  rw [← one.normal, paths, other.normal]

section Texts

variable {texts : List (String × String)} (names : ∀ text ∈ texts, IsArtifactName text.1)
  (distinct : (texts.map Prod.fst).Nodup)
include names distinct

omit distinct in
theorem segmentsOf_ne {first second : String × String} (one : first ∈ texts)
    (other : second ∈ texts) (apart : first.1 ≠ second.1) :
    segmentsOf first.1 ≠ segmentsOf second.1 :=
  fun same => apart ((names first one).eq_of_segments (names second other) same)

theorem Staged.pairwise_apart {disk : Disk} {placed : List Placement}
    (staged : site.Staged texts disk placed) :
    texts.Pairwise fun first second => Apart (segmentsOf first.1) (segmentsOf second.1) := by
  have above : ∀ first ∈ texts, ∀ second ∈ texts, first.1 ≠ second.1 →
      ¬ segmentsOf first.1 <+: segmentsOf second.1 := by
    rintro first one second other apart ⟨rel, whole⟩
    have file := staged.carried.waiting first one
    have present := staged.carried.waiting second other
    by_cases same : rel = []
    · rw [same, List.append_nil] at whole
      exact segmentsOf_ne names one other apart whole
    · have nothing := staged.standing.undoable.tree.below same
        (by rw [file]; nofun : disk.entry? (site.next (segmentsOf first.1)) ≠ some .directory)
      rw [next, List.append_assoc, List.cons_append, whole, ← next, present] at nothing
      cases nothing
  refine List.Pairwise.imp_of_mem (fun one other apart => ?_) (List.pairwise_map.mp distinct)
  exact ⟨above _ one _ other apart, above _ other _ one (Ne.symm apart)⟩

end Texts

theorem Orderly.of_segments {done : List Move} {all : List (List String)}
    (same : done.map Move.segments <+: all) (allowed : ∀ segments ∈ all, site.Allows segments)
    (apart : all.Pairwise Apart) : site.Orderly done :=
  ⟨fun _ inside => allowed _ (same.subset (List.mem_map_of_mem inside)),
    List.pairwise_map.mp (apart.sublist same.sublist)⟩

/-- What is known when the first texts are at their targets. -/
def Delivering (site : Site) (texts front : List (String × String)) : Assertion :=
  fun disk placed => ∃ done back, front ++ back = texts ∧
    done.map Move.segments = front.map (fun text => segmentsOf text.1) ∧
    site.Underway done front back disk placed

section All

variable (fresh : site.Fresh) {texts : List (String × String)}
  (names : ∀ text ∈ texts, IsArtifactName text.1)
  (allowed : ∀ text ∈ texts, site.Allows (segmentsOf text.1))
include fresh names allowed

theorem stageAll_leads (distinct : (texts.map Prod.fst).Nodup) :
    Leads (site.Standing []) (texts.forM fun text => stage site.stagingPath text.1 text.2)
      (fun _ => site.Staged texts) site.Broken := by
  refine (Leads.forM (site.Staged ·) fun front text back whole => ?_).mono
    (fun _ _ standing => ⟨standing, .nothing ..⟩) (fun _ _ _ => id) (fun _ _ => id)
  have inside : text ∈ texts := by simp [whole]
  have new : ∀ item ∈ front, segmentsOf item.1 ≠ segmentsOf text.1 := by
    intro item earlier
    have apart := List.pairwise_map.mp distinct
    rw [whole] at apart
    exact segmentsOf_ne names (by simp [whole, earlier]) inside
      ((List.pairwise_append.mp apart).2.2 item earlier text List.mem_cons_self)
  exact stage_leads fresh (names text inside).relative (allowed text inside) new text.2

theorem placeAll_leads
    (apart : texts.Pairwise fun first second => Apart (segmentsOf first.1) (segmentsOf second.1)) :
    Leads (site.Staged texts) (texts.forM fun text => place site.output site.stagingPath text.1)
      (fun _ => site.Delivering texts texts) site.Broken := by
  refine (Leads.forM (site.Delivering texts) fun front text back whole => ?_).mono
    (fun _ _ underway => ⟨[], texts, rfl, rfl, underway⟩) (fun _ _ _ => id) (fun _ _ => id)
  have inside : text ∈ texts := by simp [whole]
  have mapped : (texts.map fun text => segmentsOf text.1).Pairwise Apart :=
    List.pairwise_map.mpr apart
  rintro progress ⟨done, rest, split, same, underway⟩
  obtain rfl : rest = text :: back := List.append_cancel_left (split.trans whole)
  have others : ∀ item ∈ front ++ back, item ∈ texts := by
    intro item among
    rw [whole]
    simpa using (List.mem_append.mp among).imp_right .inr
  have orderly : ∀ replaced, site.Orderly (done ++ [⟨segmentsOf text.1, replaced⟩]) := by
    intro replaced
    refine Orderly.of_segments ?_ ?_ mapped
    · rw [whole, List.map_append, List.map_append, same]
      simp
    · intro segments listed
      obtain ⟨other, among, rfl⟩ := List.mem_map.mp listed
      exact allowed other among
  have away : ∀ item ∈ front ++ back, Apart (segmentsOf text.1) (segmentsOf item.1) := by
    intro item among
    rw [whole, List.map_append, List.map_cons, List.pairwise_middle Apart.symm, List.pairwise_cons,
      ← List.map_append] at mapped
    exact mapped.1 _ (List.mem_map_of_mem among)
  refine (place_leads fresh (names text inside).relative orderly
    (fun item among => allowed item (others item among)) away).mono (fun _ _ => id) ?_
    (fun _ _ => id) progress underway
  rintro _ disk placed ⟨replaced, underway⟩
  exact ⟨_, back, by simp [whole], by simp [same], underway⟩

theorem writeAll_leads (distinct : (texts.map Prod.fst).Nodup) :
    Leads (site.Standing []) (writeAll site.output site.stagingPath texts)
      (fun _ => site.Delivering texts texts) site.Broken :=
  (stageAll_leads fresh names allowed distinct).bind fun _ progress staged =>
    placeAll_leads fresh names allowed (Staged.pairwise_apart names distinct staged) progress staged

end All

end Site

end ApiCompiler.Emission
