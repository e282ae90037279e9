import Mathlib.Data.List.Nodup
import ApiCompiler.Proofs.Emission.Reaching
import ApiCompiler.Proofs.Emission.Taking

/-!
Removing the staging directory: wherever it breaks off nothing else is touched, when it comes to its
end nothing is left below the directory, and it does come to its end if the drive refuses nothing.
-/

namespace ApiCompiler

namespace Disk

theorem nameIn?_eq_some {directory place : Place} {name : String} :
    nameIn? directory place = some name ↔
      place = directory ++ [name] ∧ name ≠ "." ∧ name ≠ ".." := by
  rcases List.eq_nil_or_concat place with rfl | ⟨above, last, rfl⟩
  · simp [nameIn?]
  · rw [List.concat_eq_append, nameIn?, List.getLast?_concat, List.dropLast_concat]
    dsimp only
    rw [List.append_singleton_inj]
    split
    · rename_i plain
      simp only [Bool.and_eq_true, decide_eq_true_iff] at plain
      grind
    · grind

theorem mem_below {disk : Disk} {place rel : Place} {entry : Entry} :
    (rel, entry) ∈ disk.below place ↔ rel ≠ [] ∧ (place ++ rel, entry) ∈ disk.entries := by
  simp only [below, List.mem_map, List.mem_filter, Bool.and_eq_true, List.isPrefixOf_iff_prefix,
    decide_eq_true_iff, Prod.mk.injEq, Prod.exists]
  constructor
  · rintro ⟨other, entry, ⟨member, ⟨rest, rfl⟩, apart⟩, rfl, rfl⟩
    rw [List.drop_left]
    exact ⟨by simpa using apart, member⟩
  · rintro ⟨nonempty, member⟩
    exact ⟨_, entry, ⟨member, List.prefix_append .., by simpa using nonempty⟩, List.drop_left, rfl⟩

theorem mem_names {disk : Disk} {place : Place} {name : String} :
    name ∈ disk.names place ↔
      place ++ [name] ∈ disk.entries.map Prod.fst ∧ name ≠ "." ∧ name ≠ ".." := by
  rw [names, List.mem_filterMap]
  constructor
  · rintro ⟨other, member, named⟩
    obtain ⟨rfl, plain⟩ := nameIn?_eq_some.mp named
    exact ⟨member, plain⟩
  · rintro ⟨member, plain⟩
    exact ⟨_, member, nameIn?_eq_some.mpr ⟨rfl, plain⟩⟩

theorem nodup_names {disk : Disk} (distinct : (disk.entries.map Prod.fst).Nodup) (place : Place) :
    (disk.names place).Nodup := by
  refine List.Nodup.filterMap (fun first second name named named' => ?_) distinct
  rw [(nameIn?_eq_some.mp named).1, (nameIn?_eq_some.mp named').1]

theorem entry?_ne_none_iff {disk : Disk} {place : Place} (nonroot : place ≠ []) :
    disk.entry? place ≠ none ↔ place ∈ disk.entries.map Prod.fst := by
  rw [entry?_of_ne_root _ nonroot, ne_eq, List.lookup_eq_none_iff, List.mem_map]
  push Not
  refine exists_congr fun entry => and_congr_right fun _ => ?_
  rw [ne_eq, bne_iff_ne, not_not, eq_comm]

theorem length_le_height {disk : Disk} {place : Place}
    (member : place ∈ disk.entries.map Prod.fst) : place.length ≤ disk.height := by
  obtain ⟨entry, inside, rfl⟩ := List.mem_map.mp member
  exact List.le_max?_getD_of_mem (List.mem_map_of_mem inside)

theorem erase_erase {place other : Place} (inside : place <+: other) (disk : Disk) :
    (disk.erase other).erase place = disk.erase place := by
  have kept : ∀ entry : Place × Entry,
      (!place.isPrefixOf entry.1 && !other.isPrefixOf entry.1) = !place.isPrefixOf entry.1 := by
    intro entry
    cases below : place.isPrefixOf entry.1 with
    | true => rfl
    | false =>
        have away : other.isPrefixOf entry.1 = false := by
          rw [← Bool.not_eq_true, List.isPrefixOf_iff_prefix] at below ⊢
          exact fun deeper => below (inside.trans deeper)
        rw [away]
        rfl
  simp only [erase, List.filter_filter, kept]

theorem erase_foldl_erase {place : Place} {places : List Place}
    (inside : ∀ other ∈ places, place <+: other) (disk : Disk) :
    (places.foldl erase disk).erase place = disk.erase place := by
  induction places generalizing disk with
  | nil => rfl
  | cons other places ih =>
      rw [List.foldl_cons, ih (fun other later => inside other (by simp [later])),
        erase_erase (inside other (by simp))]

theorem mem_foldl_erase {places : List Place} {disk : Disk} {entry : Place × Entry} :
    entry ∈ (places.foldl erase disk).entries ↔
      entry ∈ disk.entries ∧ ∀ place ∈ places, ¬ place <+: entry.1 := by
  induction places generalizing disk with
  | nil => simp
  | cons place places ih =>
      rw [List.foldl_cons, ih, erase, List.mem_filter, Bool.not_eq_true', ← Bool.not_eq_true,
        List.isPrefixOf_iff_prefix, List.forall_mem_cons, and_assoc]

theorem entry?_foldl_erase {places : List Place} {other : Place}
    (outside : ∀ place ∈ places, ¬ place <+: other) (disk : Disk) :
    Disk.entry? (places.foldl erase disk) other = disk.entry? other := by
  induction places generalizing disk with
  | nil => rfl
  | cons place places ih =>
      have away := outside place (by simp)
      have nonroot : place ≠ [] := by
        rintro rfl
        exact away List.nil_prefix
      rw [List.foldl_cons, ih (fun later member => outside later (by simp [member])),
        entry?_erase _ nonroot, if_neg away]

theorem list_eq_ok {disk : Disk} {path : FilePath} {names : List String}
    (listed : disk.list path = .ok names) : ∃ place, names = disk.names place := by
  rw [list] at listed
  split at listed
  · cases listed
  · rename_i place found
    split at listed
    · cases listed
    · cases listed
    · exact ⟨place, (Except.ok.inj listed).symm⟩

theorem not_mem_of_list {disk : Disk} {path : FilePath} {names : List String}
    (listed : disk.list path = .ok names) : ".." ∉ names := by
  obtain ⟨place, rfl⟩ := list_eq_ok listed
  exact fun inside => (mem_names.mp inside).2.2 rfl

end Disk

namespace Emission

open Disk

namespace Site

variable {site : Site}

/-- The path of something at or below the staging directory. -/
def stagedPath (site : Site) (rel : List String) : FilePath :=
  site.output.descend (site.stagingName :: rel)

theorem child_stagedPath (rel : List String) (name : String) :
    (site.stagedPath rel).child name = site.stagedPath (rel ++ [name]) := by
  simp [stagedPath, FilePath.child, FilePath.descend]

theorem staging_append_ne_nil (rel : List String) : site.staging ++ rel ≠ [] := by
  simp [staging]

theorem Reaches.erase_staged {disk : Disk} (reaches : site.Reaches disk) (fresh : site.Fresh)
    (working : disk.workingDirectory = site.origin.workingDirectory) (rel : List String) :
    site.Reaches (disk.erase (site.staging ++ rel)) := by
  refine reaches.congr fresh working rfl fun place names directory => ?_
  have outside : ¬ site.staging ++ rel <+: place := fun inside =>
    names (inside.subset (by simp [staging]))
  rw [entry?_erase _ (staging_append_ne_nil rel), if_neg outside, directory]

/-! What is taken away. -/

/-- A disk on which nothing is changed, but for things that are gone from the staging directory. -/
structure Emptied (site : Site) (before disk : Disk) : Prop where
  tree : disk.IsTree
  working : disk.workingDirectory = site.origin.workingDirectory
  reaches : site.Reaches disk ∨ ∀ place, site.staging <+: place → disk.entry? place = none
  kept : ∀ place entry, disk.entry? place = some entry → before.entry? place = some entry
  outside : ∀ place, ¬ site.staging <+: place → disk.entry? place = before.entry? place

namespace Emptied

variable {before disk : Disk}

theorem erase (emptied : site.Emptied before disk) (fresh : site.Fresh) (rel : List String) :
    site.Emptied before (disk.erase (site.staging ++ rel)) := by
  have nonroot := site.staging_append_ne_nil rel
  refine ⟨emptied.tree.erase nonroot, emptied.working, ?_, fun place entry present => ?_,
    fun place away => ?_⟩
  · refine emptied.reaches.imp (·.erase_staged fresh emptied.working rel) fun absent place inside => ?_
    rw [entry?_erase _ nonroot, absent place inside, ite_self]
  · rw [entry?_erase _ nonroot] at present
    split at present
    · cases present
    · exact emptied.kept place entry present
  · have outside : ¬ site.staging ++ rel <+: place := fun inside =>
      away ((List.prefix_append ..).trans inside)
    rw [entry?_erase _ nonroot, if_neg outside, emptied.outside place away]

variable {rel : List String} (descending : ".." ∉ site.stagingName :: rel)
include descending

theorem place_eq (emptied : site.Emptied before disk) {place : Place}
    (found : disk.locate (site.stagedPath rel) = .ok place) : place = site.staging ++ rel := by
  rw [(Reaches.of_locate emptied.working (by simp) descending found).2]
  simp [staging]

theorem absent (emptied : site.Emptied before disk)
    (gone : disk.holds (site.stagedPath rel) = false) (place : Place)
    (inside : site.staging ++ rel <+: place) : disk.entry? place = none := by
  rcases emptied.reaches with reaches | absent
  · obtain ⟨below, rfl⟩ := inside
    refine emptied.tree.absent_below ?_ below
    by_contra present
    have whole : site.base ++ (site.stagingName :: rel) = site.staging ++ rel := by simp [staging]
    have found := reaches.locate_of_present emptied.tree (by simp) descending (whole ▸ present)
    have held := Disk.holds_iff.mpr ⟨_, found, whole ▸ present⟩
    rw [stagedPath, held] at gone
    cases gone
  · exact absent place ((List.prefix_append ..).trans inside)

end Emptied

theorem removeTree_leads (fresh : site.Fresh) {before : Disk} (depth : Nat) {rel : List String}
    (descending : ".." ∉ site.stagingName :: rel) :
    Leads (fun disk _ => site.Emptied before disk) (removeTree depth (site.stagedPath rel))
      (fun _ disk _ => site.Emptied before disk ∧
        ∀ place, site.staging ++ rel <+: place → disk.entry? place = none)
      (fun disk _ => site.Emptied before disk) := by
  induction depth generalizing rel with
  | zero => exact fun _ emptied => emptied
  | succ depth ih =>
      refine (Leads.holds fun _ _ => id).bind fun present => ?_
      cases present with
      | false => exact .pure fun disk _ ⟨emptied, gone⟩ => ⟨emptied, emptied.absent descending gone.symm⟩
      | true =>
          refine Leads.bind (Leads.list fun _ _ known => known.1) fun names => ?_
          rintro progress ⟨⟨emptied, -⟩, listed⟩
          have listable := not_mem_of_list listed
          refine Leads.bind (Leads.forM (fun _ disk _ => site.Emptied before disk)
            fun front name back whole => ?_) (fun _ => ?_) progress emptied
          · have down : ".." ∉ site.stagingName :: (rel ++ [name]) := by
              have other : name ≠ ".." := by
                rintro rfl
                exact listable (by simp [whole])
              simpa [other.symm] using descending
            rw [child_stagedPath]
            refine (Leads.isDirectory fun _ _ => id).bind fun directory => ?_
            cases directory with
            | true => exact (ih down).mono (fun _ _ => And.left) (fun _ _ _ => And.left) fun _ _ => id
            | false =>
                refine Leads.remove (fun disk _ place _ ⟨emptied, _⟩ found _ => ?_)
                  fun _ _ known => known.1
                exact emptied.place_eq down found ▸ emptied.erase fresh _
          · refine Leads.removeDirectory (fun disk _ place emptied found => ?_) fun _ _ => id
            rw [emptied.place_eq descending found]
            refine ⟨emptied.erase fresh rel, fun place inside => ?_⟩
            rw [entry?_erase _ (staging_append_ne_nil rel), if_pos inside]

/-! Nothing is refused. -/

/-- A disk whose staging directory can be removed: every place is listed once, under proper names. -/
structure Removable (site : Site) (disk : Disk) : Prop where
  reaches : site.Reaches disk
  tree : disk.IsTree
  working : disk.workingDirectory = site.origin.workingDirectory
  distinct : (disk.entries.map Prod.fst).Nodup
  named : ∀ place ∈ disk.entries.map Prod.fst, "." ∉ place ∧ ".." ∉ place

namespace Removable

variable {disk : Disk} {rel : List String}

theorem erase (removable : site.Removable disk) (fresh : site.Fresh) (rel : List String) :
    site.Removable (disk.erase (site.staging ++ rel)) := by
  have fewer : ((disk.erase (site.staging ++ rel)).entries.map Prod.fst).Sublist
      (disk.entries.map Prod.fst) := List.filter_sublist.map _
  exact ⟨removable.reaches.erase_staged fresh removable.working rel,
    removable.tree.erase (staging_append_ne_nil rel), removable.working,
    removable.distinct.sublist fewer, fun place member => removable.named place (fewer.subset member)⟩

theorem foldl_erase (removable : site.Removable disk) (fresh : site.Fresh) (names : List String)
    (rel : List String) : site.Removable
      ((names.map fun name => site.staging ++ (rel ++ [name])).foldl Disk.erase disk) := by
  induction names generalizing disk with
  | nil => exact removable
  | cons name names ih => exact ih (removable.erase fresh _)

theorem locate (removable : site.Removable disk)
    (present : disk.entry? (site.staging ++ rel) ≠ none) :
    disk.locate (site.stagedPath rel) = .ok (site.staging ++ rel) := by
  have named := removable.named _ ((entry?_ne_none_iff (staging_append_ne_nil rel)).mp present)
  have whole : site.staging ++ rel = site.base ++ (site.stagingName :: rel) := by simp [staging]
  rw [whole] at present named ⊢
  exact removable.reaches.locate_of_present removable.tree (by simp)
    (fun up => named.2 (List.mem_append_right _ up)) present

end Removable

/-- An emission on a drive that refuses nothing. -/
def unrefused (disk : Disk) (placed : List Placement) : Progress :=
  ⟨⟨disk, none⟩, placed⟩

theorem run_bind {α β : Type} {action : Emitting α} {next : α → Emitting β}
    {before after : Progress} {a : α} (ran : action.run before = (.ok a, after)) :
    (action >>= next).run before = (next a).run after := by
  have unfolded : (action >>= next).run before =
      ExceptT.bindCont next (action.run before).1 (action.run before).2 := rfl
  rw [unfolded, ran]
  rfl

theorem run_take {step : DiskStep} {disk after : Disk} (taken : disk.apply step = (.ok (), after))
    (placed : List Placement) :
    (take step).run (unrefused disk placed) = (.ok (), unrefused after placed) :=
  congrArg (fun taken : Except DiskFault Unit × Disk => (taken.1, unrefused taken.2 placed)) taken

namespace Removable

variable {disk : Disk} {placed : List Placement} {rel : List String}
  (removable : site.Removable disk)
include removable

theorem run_holds (present : disk.entry? (site.staging ++ rel) ≠ none) :
    (holds (site.stagedPath rel)).run (unrefused disk placed) =
      (.ok true, unrefused disk placed) := by
  have held := Disk.holds_iff.mpr ⟨_, removable.locate present, present⟩
  exact congrArg (fun held => (Except.ok held, unrefused disk placed)) held

theorem run_isDirectory {entry : Entry}
    (present : disk.entry? (site.staging ++ rel) = some entry) :
    (isDirectory (site.stagedPath rel)).run (unrefused disk placed) =
      (.ok (entry = .directory), unrefused disk placed) := by
  have found := find?_eq_some.mpr ⟨_, removable.locate (by simp [present]), present⟩
  have same : disk.isDirectory (site.stagedPath rel) = decide (entry = .directory) := by
    simp [Disk.isDirectory, found]
  exact congrArg (fun directory => (Except.ok directory, unrefused disk placed)) same

theorem run_list (directory : disk.entry? (site.staging ++ rel) = some .directory) :
    (list (site.stagedPath rel)).run (unrefused disk placed) =
      (.ok (disk.names (site.staging ++ rel)), unrefused disk placed) := by
  have listed : disk.list (site.stagedPath rel) = .ok (disk.names (site.staging ++ rel)) := by
    rw [Disk.list, removable.locate (by simp [directory])]
    simp only [directory]
  exact congrArg (·, unrefused disk placed) listed

theorem run_remove {bytes : ByteArray}
    (file : disk.entry? (site.staging ++ rel) = some (.file bytes)) :
    (take (.remove (site.stagedPath rel))).run (unrefused disk placed) =
      (.ok (), unrefused (disk.erase (site.staging ++ rel)) placed) := by
  have removed : disk.remove (site.stagedPath rel) = .ok (disk.erase (site.staging ++ rel)) := by
    rw [Disk.remove, removable.locate (by simp [file])]
    simp only [file]
  have taken : disk.apply (.remove (site.stagedPath rel)) =
      (.ok (), disk.erase (site.staging ++ rel)) := congrArg disk.changed removed
  exact run_take taken placed

theorem run_removeDirectory (directory : disk.entry? (site.staging ++ rel) = some .directory)
    (empty : disk.below (site.staging ++ rel) = []) :
    (take (.removeDirectory (site.stagedPath rel))).run (unrefused disk placed) =
      (.ok (), unrefused (disk.erase (site.staging ++ rel)) placed) := by
  have removed : disk.removeDirectory (site.stagedPath rel) =
      .ok (disk.erase (site.staging ++ rel)) := by
    rw [Disk.removeDirectory, removable.locate (by simp [directory])]
    simp [directory, empty]
  have taken : disk.apply (.removeDirectory (site.stagedPath rel)) =
      (.ok (), disk.erase (site.staging ++ rel)) := congrArg disk.changed removed
  exact run_take taken placed

end Removable

/-- How deep the directories below a place go. -/
def Below (disk : Disk) (place : Place) (depth : Nat) : Prop :=
  ∀ rel, disk.entry? (place ++ rel) ≠ none → rel.length < depth

/-- Up to a depth, directories are removed with all that is below them and nothing else. -/
def Removes (site : Site) (depth : Nat) : Prop :=
  ∀ {rel disk}, site.Removable disk → disk.entry? (site.staging ++ rel) = some .directory →
    Below disk (site.staging ++ rel) depth → ∀ placed,
    (removeTree depth (site.stagedPath rel)).run (unrefused disk placed) =
      (.ok (), unrefused (disk.erase (site.staging ++ rel)) placed)

theorem Removes.child {depth : Nat} (removes : site.Removes depth) {rel : List String}
    {disk : Disk} (removable : site.Removable disk) {name : String}
    (present : disk.entry? (site.staging ++ (rel ++ [name])) ≠ none)
    (below : Below disk (site.staging ++ rel) (depth + 1)) (placed : List Placement) :
    (removeChild (removeTree depth) ((site.stagedPath rel).child name)).run
        (unrefused disk placed) =
      (.ok (), unrefused (disk.erase (site.staging ++ (rel ++ [name]))) placed) := by
  obtain ⟨entry, present⟩ := Option.ne_none_iff_exists'.mp present
  rw [child_stagedPath, removeChild, run_bind (removable.run_isDirectory present)]
  cases entry with
  | directory =>
      refine removes removable present (fun deeper found => ?_) placed
      have length := below ([name] ++ deeper) (by simpa using found)
      simpa [Nat.add_comm] using length
  | file bytes => exact removable.run_remove present

theorem Removes.children (fresh : site.Fresh) {depth : Nat} (removes : site.Removes depth)
    {rel : List String} {names : List String} (distinct : names.Nodup) {disk : Disk}
    (removable : site.Removable disk)
    (present : ∀ name ∈ names, disk.entry? (site.staging ++ (rel ++ [name])) ≠ none)
    (below : Below disk (site.staging ++ rel) (depth + 1)) (placed : List Placement) :
    (names.forM fun name =>
        removeChild (removeTree depth) ((site.stagedPath rel).child name)).run
        (unrefused disk placed) =
      (.ok (), unrefused
        ((names.map fun name => site.staging ++ (rel ++ [name])).foldl Disk.erase disk) placed) := by
  induction names generalizing disk with
  | nil => rfl
  | cons name names ih =>
      have child := removes.child removable (present name (by simp)) below placed
      rw [List.forM, run_bind child, List.map_cons, List.foldl_cons]
      obtain ⟨new, distinct⟩ := List.nodup_cons.mp distinct
      have nonroot := site.staging_append_ne_nil (rel ++ [name])
      refine ih distinct (removable.erase fresh _) (fun other later => ?_) fun deeper found => ?_
      · have apart : ¬ site.staging ++ (rel ++ [name]) <+: site.staging ++ (rel ++ [other]) := by
          intro inside
          obtain rfl : name = other := by
            simpa [List.prefix_append_right_inj] using inside
          exact new later
        rw [entry?_erase _ nonroot, if_neg apart]
        exact present other (by simp [later])
      · rw [entry?_erase _ nonroot] at found
        split at found
        · exact absurd rfl found
        · exact below deeper found

theorem Removable.below_erased {disk : Disk} (removable : site.Removable disk) (rel : List String) :
    (((disk.names (site.staging ++ rel)).map fun name =>
      site.staging ++ (rel ++ [name])).foldl Disk.erase disk).below (site.staging ++ rel) = [] := by
  refine List.eq_nil_iff_forall_not_mem.mpr fun ⟨deeper, entry⟩ inside => ?_
  obtain ⟨strict, member⟩ := mem_below.mp inside
  obtain ⟨member, kept⟩ := mem_foldl_erase.mp member
  obtain ⟨name, rest, rfl⟩ := List.exists_cons_of_ne_nil strict
  have whole : site.staging ++ rel ++ name :: rest = site.staging ++ (rel ++ [name]) ++ rest := by
    simp
  have key := List.mem_map_of_mem (f := Prod.fst) member
  have proper := removable.named _ key
  have present : disk.entry? (site.staging ++ (rel ++ [name])) ≠ none := by
    intro absent
    have nothing := removable.tree.absent_below absent rest
    rw [← whole] at nothing
    exact (entry?_ne_none_iff (by simp)).mpr key nothing
  have listed : name ∈ disk.names (site.staging ++ rel) := by
    refine mem_names.mpr ⟨?_, ?_, ?_⟩
    · rw [List.append_assoc]
      exact (entry?_ne_none_iff (site.staging_append_ne_nil _)).mp present
    · rintro rfl
      exact proper.1 (by simp)
    · rintro rfl
      exact proper.2 (by simp)
  exact kept _ (List.mem_map_of_mem listed) (whole ▸ List.prefix_append ..)

theorem Removes.succ (fresh : site.Fresh) {depth : Nat} (removes : site.Removes depth) :
    site.Removes (depth + 1) := by
  intro rel disk removable directory below placed
  have present : disk.entry? (site.staging ++ rel) ≠ none := by simp [directory]
  have emptied := removable.foldl_erase fresh (disk.names (site.staging ++ rel)) rel
  have children := removes.children fresh (nodup_names removable.distinct _) removable
    (fun name listed => by
      rw [entry?_ne_none_iff (site.staging_append_ne_nil _), ← List.append_assoc]
      exact (mem_names.mp listed).1) below placed
  rw [removeTree, run_bind (removable.run_holds present), if_pos rfl,
    run_bind (removable.run_list directory), run_bind children]
  -- What was listed is below the directory, which is still there and comes last.
  rw [← entry?_foldl_erase fun place member => ?_] at directory
  · rw [emptied.run_removeDirectory directory (removable.below_erased rel),
      erase_foldl_erase fun place member => ?_]
    obtain ⟨name, -, rfl⟩ := List.mem_map.mp member
    exact (List.prefix_append_right_inj _).mpr (List.prefix_append ..)
  · obtain ⟨name, -, rfl⟩ := List.mem_map.mp member
    intro inside
    have shorter := inside.length_le
    simp only [List.length_append, List.length_singleton] at shorter
    omega

theorem removes (fresh : site.Fresh) (depth : Nat) : site.Removes depth := by
  induction depth with
  | zero => exact fun _ directory below => absurd (below [] (by simp [directory])) (Nat.not_lt_zero _)
  | succ depth ih => exact ih.succ fresh

/-! The staging directory. -/

def stagingPath (site : Site) : FilePath :=
  site.output.join (.ofText site.stagingName)

theorem stagingPath_eq (plain : FilePath.ofText site.stagingName = ⟨false, [site.stagingName]⟩) :
    site.stagingPath = site.output.descend [site.stagingName] := by
  rw [stagingPath, plain]
  rfl

/--
Whichever of its steps is refused, removing the staging directory changes nothing else. Unless a refusal
is logged, nothing is left of the directory.
-/
theorem removeStaging_emptied (fresh : site.Fresh) {drive : Drive}
    (emptied : site.Emptied drive.disk drive.disk) :
    site.Emptied drive.disk (removeStaging drive site.stagingPath).1.disk ∧
      ((removeStaging drive site.stagingPath).2 = #[] → ∀ place, site.staging <+: place →
        Disk.entry? (removeStaging drive site.stagingPath).1.disk place = none) := by
  have descending : ".." ∉ [site.stagingName] := by simp [Ne.symm fresh.descending]
  have removed := removeTree_leads fresh (drive.disk.height + 1) descending ⟨drive, []⟩ emptied
  rw [stagedPath, ← stagingPath_eq fresh.plain] at removed
  rw [removeStaging]
  revert removed
  rcases (removeTree (drive.disk.height + 1) site.stagingPath).run ⟨drive, []⟩ with
    ⟨_ | _, progress⟩
  · exact fun emptied => ⟨emptied, fun quiet => by simp at quiet⟩
  · rintro ⟨emptied, gone⟩
    rw [List.append_nil] at gone
    exact ⟨emptied, fun _ => gone⟩

/-- A drive that refuses nothing loses the staging directory and nothing else. -/
theorem removeStaging_unrefused (fresh : site.Fresh) {disk : Disk}
    (removable : site.Removable disk) (directory : disk.entry? site.staging = some .directory) :
    removeStaging ⟨disk, none⟩ site.stagingPath = (⟨disk.erase site.staging, none⟩, #[]) := by
  rw [← List.append_nil site.staging] at directory
  have below : Below disk (site.staging ++ []) (disk.height + 1) := by
    intro rel present
    rw [List.append_nil] at present
    have length := length_le_height
      ((entry?_ne_none_iff (site.staging_append_ne_nil rel)).mp present)
    rw [List.length_append] at length
    omega
  have removed : (removeTree (disk.height + 1) (site.stagedPath [])).run ⟨⟨disk, none⟩, []⟩ =
      (.ok (), ⟨⟨disk.erase (site.staging ++ []), none⟩, []⟩) :=
    removes fresh _ removable directory below []
  rw [stagedPath, ← stagingPath_eq fresh.plain, List.append_nil] at removed
  rw [removeStaging, removed]

end Site

end Emission

end ApiCompiler
