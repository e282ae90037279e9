import ApiCompiler.Emission.FileEmitter
import ApiCompiler.Proofs.World.Steps

/-!
What an emission keeps true of the disk while it moves files into place, so that the moves can be
taken back one after the other.
-/

namespace ApiCompiler.Emission

open Disk

/-- The disk an emission finds, and where it is told to write. -/
structure Site where
  origin : Disk
  output : FilePath
  stagingName : String

/-- A file moved into place, and whether something was put aside for it. -/
structure Move where
  segments : List String
  replaced : Bool

/-- Everything that was there still is, and at most directories have come. -/
def Kept (before after : Option Entry) : Prop :=
  after = before ∨ before = none ∧ after = some .directory

namespace Kept

theorem grow {before : Option Entry} {first second : Disk} {place : Place}
    (kept : Kept before (first.entry? place)) (grown : Grown first second) :
    Kept before (second.entry? place) := by
  cases present : first.entry? place with
  | some entry =>
      rw [present] at kept
      rw [grown.kept _ _ present]
      exact kept
  | none =>
      rw [present] at kept
      obtain rfl : before = none := by
        rcases kept with same | ⟨none, -⟩
        · exact same.symm
        · exact none
      exact (grown.directories place present).imp id fun directory => ⟨rfl, directory⟩

theorem of_none {before : Option Entry} (kept : Kept before none) : before = none := by
  rcases kept with same | ⟨none, -⟩
  · exact same.symm
  · exact none

theorem file_iff {before after : Option Entry} (kept : Kept before after) {bytes : ByteArray} :
    after = some (.file bytes) ↔ before = some (.file bytes) := by
  rcases kept with rfl | ⟨rfl, rfl⟩
  · rfl
  · exact ⟨nofun, nofun⟩

end Kept

namespace Site

variable (site : Site)

def base : Place :=
  site.output.resolveFrom site.origin.workingDirectory

def staging : Place :=
  site.base ++ [site.stagingName]

def target (segments : List String) : Place :=
  site.base ++ segments

def next (segments : List String) : Place :=
  site.staging ++ "next" :: segments

def aside (segments : List String) : Place :=
  site.staging ++ "previous" :: segments

def asidePath (segments : List String) : FilePath :=
  site.output.descend (site.stagingName :: "previous" :: segments)

def placement (move : Move) : Placement :=
  ⟨site.output.descend move.segments,
    if move.replaced then some (site.asidePath move.segments) else none⟩

/-- The staging directory is new, and no path of the emission leads through it by chance. -/
structure Fresh : Prop where
  plain : FilePath.ofText site.stagingName = ⟨false, [site.stagingName]⟩
  descending : site.stagingName ≠ ".."
  working : site.stagingName ∉ site.origin.workingDirectory
  output : site.stagingName ∉ site.output.segments
  absent : site.origin.entry? site.staging = none

/-- A relative path that leads down from the output directory, but not to the staging directory. -/
structure Allows (segments : List String) : Prop where
  nonempty : segments ≠ []
  descending : ".." ∉ segments
  fresh : site.stagingName ∉ segments

variable {site}

namespace Allows

variable {segments : List String} (allows : site.Allows segments)
include allows

theorem outside (rel : Place) : ¬ site.staging <+: site.target segments ++ rel := by
  intro inside
  rw [staging, target, List.append_assoc, List.prefix_append_right_inj] at inside
  have fresh := allows.fresh
  cases segments with
  | nil => exact absurd rfl allows.nonempty
  | cons name segments =>
      rw [List.cons_append, List.cons_prefix_cons] at inside
      exact fresh (by simp [inside.1])

theorem apart_staging (rel : Place) : Apart (site.target segments) (site.staging ++ rel) := by
  constructor
  · intro inside
    rw [staging, target, List.append_assoc, List.prefix_append_right_inj] at inside
    have fresh := allows.fresh
    cases segments with
    | nil => exact absurd rfl allows.nonempty
    | cons name segments =>
        rw [List.singleton_append, List.cons_prefix_cons] at inside
        exact fresh (by simp [inside.1])
  · intro inside
    exact allows.outside [] (by simpa using (List.prefix_append ..).trans inside)

theorem apart_aside (other : List String) : Apart (site.target segments) (site.aside other) :=
  allows.apart_staging _

theorem apart_next (other : List String) : Apart (site.target segments) (site.next other) :=
  allows.apart_staging _

theorem target_ne_nil : site.target segments ≠ [] := by
  simp [target, allows.nonempty]

end Allows

theorem apart_aside (site : Site) {first second : List String} (apart : Apart first second) :
    Apart (site.aside first) (site.aside second) := by
  refine Apart.append_left ⟨fun inside => ?_, fun inside => ?_⟩ _
  · exact apart.1 (List.cons_prefix_cons.mp inside).2
  · exact apart.2 (List.cons_prefix_cons.mp inside).2

theorem apart_next_aside (first second : List String) :
    Apart (site.next first) (site.aside second) := by
  refine Apart.append_left ⟨fun inside => ?_, fun inside => ?_⟩ _
  · exact absurd (List.cons_prefix_cons.mp inside).1 (by decide)
  · exact absurd (List.cons_prefix_cons.mp inside).1 (by decide)

/-! What can be undone. -/

/-- The moves can be taken back: what they replaced is aside, and all else is as it was. -/
structure Undoable (site : Site) (disk : Disk) (done : List Move) : Prop where
  tree : disk.IsTree
  working : disk.workingDirectory = site.origin.workingDirectory
  outside : ∀ place, ¬ site.staging <+: place →
    (∀ move ∈ done, ¬ site.target move.segments <+: place) →
      Kept (site.origin.entry? place) (disk.entry? place)
  aside : ∀ move ∈ done, move.replaced = true → ∀ rel,
    Kept (site.origin.entry? (site.target move.segments ++ rel))
      (disk.entry? (site.aside move.segments ++ rel))
  unused : ∀ move ∈ done, move.replaced = false →
    site.origin.entry? (site.target move.segments) = none

/-- The moves were to places of their own. -/
structure Orderly (site : Site) (done : List Move) : Prop where
  allowed : ∀ move ∈ done, site.Allows move.segments
  apart : done.Pairwise fun first second => Apart first.segments second.segments

namespace Orderly

variable {done : List Move} {move : Move}

theorem front (orderly : site.Orderly (done ++ [move])) : site.Orderly done :=
  ⟨fun other inside => orderly.allowed other (by simp [inside]),
    (List.pairwise_append.mp orderly.apart).1⟩

theorem last (orderly : site.Orderly (done ++ [move])) : site.Allows move.segments :=
  orderly.allowed move (by simp)

theorem apart_last (orderly : site.Orderly (done ++ [move])) {other : Move}
    (inside : other ∈ done) : Apart other.segments move.segments :=
  (List.pairwise_append.mp orderly.apart).2.2 other inside move (by simp)

end Orderly

namespace Undoable

variable {disk : Disk} {done : List Move} {segments : List String}

theorem refl (tree : site.origin.IsTree) : site.Undoable site.origin [] :=
  ⟨tree, rfl, fun _ _ _ => .inl rfl, nofun, nofun⟩

theorem grow (undoable : site.Undoable disk done) {after : Disk} (grown : Grown disk after)
    (tree : after.IsTree) : site.Undoable after done :=
  ⟨tree, grown.working.trans undoable.working,
    fun place away others => (undoable.outside place away others).grow grown,
    fun move inside replaced rel => (undoable.aside move inside replaced rel).grow grown,
    undoable.unused⟩

theorem kept_target (undoable : site.Undoable disk done) {replaced : Bool}
    (orderly : site.Orderly (done ++ [⟨segments, replaced⟩])) (rel : Place) :
    Kept (site.origin.entry? (site.target segments ++ rel))
      (disk.entry? (site.target segments ++ rel)) := by
  refine undoable.outside _ (orderly.last.outside rel) fun other inside => ?_
  exact ((orderly.apart_last inside).append_left _).outside rel

theorem setAside (undoable : site.Undoable disk done)
    (orderly : site.Orderly (done ++ [⟨segments, true⟩]))
    (parent : disk.entry? (site.aside segments).dropLast = some .directory) :
    site.Undoable (disk.transfer (site.target segments) (site.aside segments))
      (done ++ [⟨segments, true⟩]) := by
  have allows : site.Allows segments := orderly.last
  have apart := allows.apart_aside segments
  refine ⟨undoable.tree.transfer apart parent, undoable.working, ?_, ?_, ?_⟩
  · intro place away others
    have awayAside : ¬ site.aside segments <+: place := fun inside =>
      away ((List.prefix_append ..).trans inside)
    rw [entry?_transfer _ apart, if_neg awayAside, if_neg (others ⟨segments, true⟩ (by simp))]
    exact undoable.outside place away fun other inside => others other (by simp [inside])
  · intro move inside replaced rel
    rcases List.mem_append.mp inside with earlier | last
    · have apartAside := site.apart_aside (orderly.apart_last earlier)
      have apartTarget := allows.apart_aside move.segments
      rw [entry?_transfer _ apart, if_neg (apartAside.symm.outside rel),
        if_neg (apartTarget.outside rel)]
      exact undoable.aside move earlier replaced rel
    · obtain rfl := List.mem_singleton.mp last
      rw [entry?_transfer _ apart, if_pos (List.prefix_append ..), List.drop_left]
      exact undoable.kept_target orderly rel
  · intro move inside unused
    rcases List.mem_append.mp inside with earlier | last
    · exact undoable.unused move earlier unused
    · obtain rfl := List.mem_singleton.mp last
      cases unused

theorem addUnused (undoable : site.Undoable disk done)
    (orderly : site.Orderly (done ++ [⟨segments, false⟩]))
    (absent : disk.entry? (site.target segments) = none) :
    site.Undoable disk (done ++ [⟨segments, false⟩]) := by
  refine ⟨undoable.tree, undoable.working, ?_, ?_, ?_⟩
  · exact fun place away others =>
      undoable.outside place away fun other inside => others other (by simp [inside])
  · intro move inside replaced rel
    rcases List.mem_append.mp inside with earlier | last
    · exact undoable.aside move earlier replaced rel
    · obtain rfl := List.mem_singleton.mp last
      cases replaced
  · intro move inside unused
    rcases List.mem_append.mp inside with earlier | last
    · exact undoable.unused move earlier unused
    · obtain rfl := List.mem_singleton.mp last
      have kept := undoable.kept_target orderly []
      rw [List.append_nil, absent] at kept
      exact kept.of_none

theorem moveNext {replaced : Bool} (undoable : site.Undoable disk (done ++ [⟨segments, replaced⟩]))
    (orderly : site.Orderly (done ++ [⟨segments, replaced⟩]))
    (parent : disk.entry? (site.target segments).dropLast = some .directory) :
    site.Undoable (disk.transfer (site.next segments) (site.target segments))
      (done ++ [⟨segments, replaced⟩]) := by
  have allows : site.Allows segments := orderly.last
  have apart := (allows.apart_next segments).symm
  refine ⟨undoable.tree.transfer apart parent, undoable.working, ?_, ?_, undoable.unused⟩
  · intro place away others
    have awayNext : ¬ site.next segments <+: place := fun inside =>
      away ((List.prefix_append ..).trans inside)
    rw [entry?_transfer _ apart, if_neg (others ⟨segments, replaced⟩ (by simp)), if_neg awayNext]
    exact undoable.outside place away others
  · intro move inside aside rel
    have apartTarget := allows.apart_aside move.segments
    rw [entry?_transfer _ apart, if_neg (apartTarget.outside rel),
      if_neg ((apart_next_aside ..).outside rel)]
    exact undoable.aside move inside aside rel

theorem takeAway {move : Move} (undoable : site.Undoable disk (done ++ [move]))
    (orderly : site.Orderly (done ++ [move])) :
    site.Undoable (disk.erase (site.target move.segments)) (done ++ [move]) := by
  have nonroot := orderly.last.target_ne_nil
  refine ⟨undoable.tree.erase nonroot, undoable.working, ?_, ?_, undoable.unused⟩
  · intro place away others
    rw [entry?_erase _ nonroot, if_neg (others move (by simp))]
    exact undoable.outside place away others
  · intro other inside aside rel
    have apart := orderly.last.apart_aside other.segments
    rw [entry?_erase _ nonroot, if_neg (apart.outside rel)]
    exact undoable.aside other inside aside rel

theorem putBack (undoable : site.Undoable disk (done ++ [⟨segments, true⟩]))
    (orderly : site.Orderly (done ++ [⟨segments, true⟩]))
    (parent : disk.entry? (site.target segments).dropLast = some .directory) :
    site.Undoable (disk.transfer (site.aside segments) (site.target segments)) done := by
  have allows : site.Allows segments := orderly.last
  have apart := (allows.apart_aside segments).symm
  refine ⟨undoable.tree.transfer apart parent, undoable.working, ?_, ?_, ?_⟩
  · intro place away others
    have awayAside : ¬ site.aside segments <+: place := fun inside =>
      away ((List.prefix_append ..).trans inside)
    rw [entry?_transfer _ apart]
    by_cases here : site.target segments <+: place
    · obtain ⟨rel, rfl⟩ := here
      rw [if_pos (List.prefix_append ..), List.drop_left]
      exact undoable.aside ⟨segments, true⟩ (by simp) rfl rel
    · rw [if_neg here, if_neg awayAside]
      refine undoable.outside place away fun other inside => ?_
      rcases List.mem_append.mp inside with earlier | last
      · exact others other earlier
      · obtain rfl := List.mem_singleton.mp last
        exact here
  · intro move inside aside rel
    have apartAside := site.apart_aside (orderly.apart_last inside)
    have apartTarget := allows.apart_aside move.segments
    rw [entry?_transfer _ apart, if_neg (apartTarget.outside rel),
      if_neg (apartAside.symm.outside rel)]
    exact undoable.aside move (by simp [inside]) aside rel
  · exact fun move inside => undoable.unused move (by simp [inside])

theorem dropUnused (undoable : site.Undoable disk (done ++ [⟨segments, false⟩]))
    (tree : site.origin.IsTree) (absent : disk.entry? (site.target segments) = none) :
    site.Undoable disk done := by
  refine ⟨undoable.tree, undoable.working, ?_, ?_, ?_⟩
  · intro place away others
    by_cases here : site.target segments <+: place
    · obtain ⟨rel, rfl⟩ := here
      have unused := undoable.unused ⟨segments, false⟩ (by simp) rfl
      rw [undoable.tree.absent_below absent, tree.absent_below unused]
      exact .inl rfl
    · refine undoable.outside place away fun other inside => ?_
      rcases List.mem_append.mp inside with earlier | last
      · exact others other earlier
      · obtain rfl := List.mem_singleton.mp last
        exact here
  · exact fun move inside => undoable.aside move (by simp [inside])
  · exact fun move inside => undoable.unused move (by simp [inside])

end Undoable

end Site

end ApiCompiler.Emission
