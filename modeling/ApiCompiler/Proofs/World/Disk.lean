import Mathlib.Data.List.Induction
import Mathlib.Tactic.ByContra
import ApiCompiler.World.Disk

/-!
What is where on a disk: after a place is given something, erased or moved, and along a path.
-/

namespace ApiCompiler

def FilePath.descend (path : FilePath) (names : List String) : FilePath :=
  ⟨path.isAbsolute, path.segments ++ names⟩

namespace Disk

/-! Places. -/

theorem lookup_cons (key : Place) (entry : Entry) (entries : List (Place × Entry))
    (place : Place) :
    ((key, entry) :: entries).lookup place =
      if place = key then some entry else entries.lookup place := by
  by_cases same : place = key
  · simp [same]
  · have apart : (place == key) = false := by simpa using same
    simp [List.lookup_cons, apart, same]

theorem lookup_putIn (place : Place) (entry : Entry) (entries : List (Place × Entry))
    (other : Place) :
    (putIn place entry entries).lookup other =
      if other = place then some entry else entries.lookup other := by
  induction entries with
  | nil => rw [putIn, lookup_cons]
  | cons first entries ih =>
      obtain ⟨key, old⟩ := first
      simp only [putIn]
      by_cases here : key = place
      · subst here
        simp only [if_true, lookup_cons]
        split <;> rfl
      · rw [if_neg here, lookup_cons, lookup_cons, ih]
        by_cases same : other = key
        · have apart : other ≠ place := fun equal => here (same.symm.trans equal)
          rw [if_pos same, if_neg apart, if_pos same]
        · rw [if_neg same, if_neg same]

theorem lookup_filter (keep : Place → Bool) (entries : List (Place × Entry)) (place : Place) :
    (entries.filter fun entry => keep entry.1).lookup place =
      if keep place then entries.lookup place else none := by
  induction entries with
  | nil => simp
  | cons first entries ih =>
      obtain ⟨key, entry⟩ := first
      rw [List.filter_cons, lookup_cons]
      by_cases same : place = key
      · subst same
        cases kept : keep place <;> simp [ih, kept]
      · cases keep key <;> simp [lookup_cons, ih, same]

theorem lookup_map_moved (source target : Place) (entries : List (Place × Entry))
    (all : ∀ entry ∈ entries, source <+: entry.1) (rel : Place) :
    (entries.map fun entry => (target ++ entry.1.drop source.length, entry.2)).lookup
        (target ++ rel) = entries.lookup (source ++ rel) := by
  induction entries with
  | nil => rfl
  | cons first entries ih =>
      have others := ih fun entry member => all entry (by simp [member])
      obtain ⟨key, entry⟩ := first
      obtain ⟨back, rfl⟩ := all (key, entry) (by simp)
      rw [List.map_cons, lookup_cons, lookup_cons, others]
      simp

theorem lookup_eq_none_of_outside {target : Place} {entries : List (Place × Entry)}
    (all : ∀ entry ∈ entries, target <+: entry.1) {place : Place} (outside : ¬ target <+: place) :
    entries.lookup place = none := by
  refine List.lookup_eq_none_iff.mpr fun entry member => ?_
  rw [bne_iff_ne]
  rintro rfl
  exact outside (all entry member)

@[simp] theorem entry?_root (disk : Disk) : disk.entry? [] = some .directory := rfl

theorem entry?_of_ne_root (disk : Disk) {place : Place} (nonroot : place ≠ []) :
    disk.entry? place = disk.entries.lookup place := by
  simp [ entry?, nonroot]

theorem entry?_put (disk : Disk) {place : Place} (nonroot : place ≠ []) (entry : Entry)
    (other : Place) :
    Disk.entry? (disk.put place entry) other =
      if other = place then some entry else disk.entry? other := by
  by_cases root : other = []
  · subst root
    simp [Ne.symm nonroot]
  · rw [entry?_of_ne_root _ root, entry?_of_ne_root _ root]
    exact lookup_putIn place entry disk.entries other

theorem entry?_erase (disk : Disk) {place : Place} (nonroot : place ≠ []) (other : Place) :
    Disk.entry? (disk.erase place) other = if place <+: other then none else disk.entry? other := by
  by_cases root : other = []
  · subst root
    simp [nonroot]
  · rw [entry?_of_ne_root _ root, entry?_of_ne_root _ root, erase,
      lookup_filter (fun other => !place.isPrefixOf other)]
    by_cases inside : place <+: other
    · simp [inside, List.isPrefixOf_iff_prefix.mpr inside]
    · have outside : place.isPrefixOf other = false := by
        rw [← Bool.not_eq_true, List.isPrefixOf_iff_prefix]
        exact inside
      simp [inside, outside]

/-- A place that is neither below the other nor above it. -/
def Apart (first second : Place) : Prop :=
  ¬ first <+: second ∧ ¬ second <+: first

theorem Apart.symm {first second : Place} (apart : Apart first second) : Apart second first :=
  ⟨apart.2, apart.1⟩

theorem Apart.ne {first second : Place} (apart : Apart first second) : first ≠ second := by
  rintro rfl
  exact apart.1 (List.prefix_refl _)

theorem Apart.outside {first second : Place} (apart : Apart first second) (rel : Place) :
    ¬ first <+: second ++ rel := by
  intro inside
  rcases List.prefix_or_prefix_of_prefix inside (List.prefix_append second rel) with early | late
  · exact apart.1 early
  · exact apart.2 late

theorem Apart.append_left {first second : Place} (apart : Apart first second) (front : Place) :
    Apart (front ++ first) (front ++ second) :=
  ⟨fun inside => apart.1 ((List.prefix_append_right_inj _).mp inside),
    fun inside => apart.2 ((List.prefix_append_right_inj _).mp inside)⟩

theorem entry?_transfer (disk : Disk) {source target : Place} (apart : Apart source target)
    (other : Place) :
    Disk.entry? (disk.transfer source target) other =
      if target <+: other then disk.entry? (source ++ other.drop target.length)
      else if source <+: other then none
      else disk.entry? other := by
  have fromRoot : source ≠ [] := by
    rintro rfl
    exact apart.1 (List.nil_prefix)
  have toRoot : target ≠ [] := by
    rintro rfl
    exact apart.2 (List.nil_prefix)
  by_cases root : other = []
  · subst root
    simp [fromRoot, toRoot]
  let moved := disk.entries.filter fun entry => source.isPrefixOf entry.1
  have movedAll : ∀ entry ∈ moved, source <+: entry.1 := fun entry member =>
    List.isPrefixOf_iff_prefix.mp (List.mem_filter.mp member).2
  have kept : ((disk.erase source).erase target).entries.lookup other =
      if target <+: other then none else if source <+: other then none
      else disk.entry? other := by
    rw [← entry?_of_ne_root _ root, entry?_erase _ toRoot, entry?_erase _ fromRoot]
  rw [entry?_of_ne_root _ root, transfer, List.lookup_append, kept]
  by_cases inside : target <+: other
  · obtain ⟨rel, rfl⟩ := inside
    have found := lookup_map_moved source target moved movedAll rel
    rw [lookup_filter (fun other => source.isPrefixOf other)] at found
    rw [if_pos (List.prefix_append ..), if_pos (List.prefix_append ..), Option.none_or,
      List.drop_left, entry?_of_ne_root _ (by simp [fromRoot])]
    simpa using found
  · rw [if_neg inside, if_neg inside]
    have movedNone : (moved.map fun entry =>
        (target ++ entry.1.drop source.length, entry.2)).lookup other = none := by
      refine lookup_eq_none_of_outside (fun entry member => ?_) inside
      obtain ⟨old, -, rfl⟩ := List.mem_map.mp member
      exact List.prefix_append ..
    rw [movedNone, Option.or_none]

/-! Trees. -/

/-- Everything on the disk is in a directory. -/
def IsTree (disk : Disk) : Prop :=
  ∀ place name, disk.entry? (place ++ [name]) ≠ none → disk.entry? place = some .directory

theorem IsTree.of_entries {disk : Disk}
    (parents : ∀ entry ∈ disk.entries, disk.entry? entry.1.dropLast = some .directory) :
    disk.IsTree := by
  intro place name present
  rw [entry?_of_ne_root _ (by simp)] at present
  obtain ⟨entry, found⟩ := Option.ne_none_iff_exists'.mp present
  obtain ⟨before, after, whole, -⟩ := List.lookup_eq_some_iff.mp found
  simpa using parents (place ++ [name], entry) (by simp [whole])

theorem IsTree.above {disk : Disk} (tree : disk.IsTree) {place rel : Place} (deeper : rel ≠ [])
    (present : disk.entry? (place ++ rel) ≠ none) : disk.entry? place = some .directory := by
  induction rel using List.reverseRecOn with
  | nil => exact absurd rfl deeper
  | append_singleton rel name ih =>
      have parent := tree (place ++ rel) name (by simpa using present)
      by_cases direct : rel = []
      · simpa [direct] using parent
      · exact ih direct (by simp [parent])

theorem IsTree.below {disk : Disk} (tree : disk.IsTree) {place rel : Place} (deeper : rel ≠ [])
    (other : disk.entry? place ≠ some .directory) : disk.entry? (place ++ rel) = none := by
  by_contra present
  exact other (tree.above deeper present)

theorem IsTree.not_below {disk : Disk} (tree : disk.IsTree) {place other : Place}
    (notDirectory : disk.entry? place ≠ some .directory)
    (directory : disk.entry? other = some .directory) : ¬ place <+: other := by
  rintro ⟨rel, rfl⟩
  by_cases here : rel = []
  · exact notDirectory (by simpa [here] using directory)
  · rw [tree.below here notDirectory] at directory
    cases directory

theorem IsTree.absent_below {disk : Disk} (tree : disk.IsTree) {place : Place}
    (absent : disk.entry? place = none) (rel : Place) : disk.entry? (place ++ rel) = none := by
  by_cases here : rel = []
  · rw [here, List.append_nil, absent]
  · exact tree.below here (by simp [absent])

theorem IsTree.put {disk : Disk} (tree : disk.IsTree) {place : Place} (nonroot : place ≠ [])
    (parent : disk.entry? place.dropLast = some .directory) {entry : Entry}
    (fits : disk.entry? place ≠ some .directory ∨ entry = .directory) :
    (disk.put place entry).IsTree := by
  intro other name present
  rw [entry?_put _ nonroot] at present ⊢
  by_cases last : other ++ [name] = place
  · have above : other = place.dropLast := by simp [← last]
    have apart : other ≠ place := by
      intro same
      simp [same] at last
    rw [if_neg apart, above]
    exact parent
  · rw [if_neg last] at present
    have directory := tree other name present
    split
    · rename_i same
      subst same
      rcases fits with notDirectory | same
      · exact absurd directory notDirectory
      · rw [same]
    · exact directory

theorem IsTree.erase {disk : Disk} (tree : disk.IsTree) {place : Place} (nonroot : place ≠ []) :
    (disk.erase place).IsTree := by
  intro other name present
  rw [entry?_erase _ nonroot] at present ⊢
  split at present
  · exact absurd rfl present
  · rename_i outside
    rw [if_neg fun inside => outside (inside.trans (List.prefix_append ..))]
    exact tree other name present

theorem IsTree.transfer {disk : Disk} (tree : disk.IsTree) {source target : Place}
    (apart : Apart source target) (parent : disk.entry? target.dropLast = some .directory) :
    (disk.transfer source target).IsTree := by
  intro other name present
  have nonroot : target ≠ [] := by
    rintro rfl
    exact apart.2 List.nil_prefix
  rw [entry?_transfer _ apart] at present ⊢
  by_cases inside : target <+: other
  · obtain ⟨rel, rfl⟩ := inside
    rw [if_pos (by simp [List.append_assoc])] at present
    rw [if_pos (List.prefix_append ..), List.drop_left]
    rw [List.append_assoc, List.drop_left, ← List.append_assoc] at present
    exact tree _ name present
  · rw [if_neg inside]
    by_cases last : target <+: other ++ [name]
    · have whole : other ++ [name] = target := by
        rcases List.prefix_concat_iff.mp last with same | inside'
        · exact same.symm
        · exact absurd inside' inside
      have above : other = target.dropLast := by simp [← whole]
      have outside : ¬ source <+: other := by
        intro fromSource
        exact apart.1 (fromSource.trans (whole ▸ List.prefix_append ..))
      rw [if_neg outside, above]
      exact parent
    · rw [if_neg last] at present
      split at present
      · exact absurd rfl present
      · rename_i outside
        rw [if_neg fun fromSource => outside (fromSource.trans (List.prefix_append ..))]
        exact tree other name present

/-! Directories that are added. -/

/-- The disk has new directories and nothing else. -/
structure Grown (before after : Disk) : Prop where
  kept : ∀ place entry, before.entry? place = some entry → after.entry? place = some entry
  directories : ∀ place, before.entry? place = none →
    after.entry? place = none ∨ after.entry? place = some .directory
  working : after.workingDirectory = before.workingDirectory

namespace Grown

theorem refl (disk : Disk) : Grown disk disk :=
  ⟨fun _ _ present => present, fun _ absent => .inl absent, rfl⟩

theorem trans {first second third : Disk} (before : Grown first second)
    (after : Grown second third) : Grown first third := by
  refine ⟨fun place entry present => after.kept _ _ (before.kept _ _ present), ?_,
    after.working.trans before.working⟩
  intro place absent
  rcases before.directories place absent with absent' | directory
  · exact after.directories place absent'
  · exact .inr (after.kept _ _ directory)

theorem put {disk : Disk} {place : Place} (nonroot : place ≠ [])
    (absent : disk.entry? place = none) : Grown disk (disk.put place .directory) := by
  refine ⟨fun other entry present => ?_, fun other missing => ?_, rfl⟩
  · rw [entry?_put _ nonroot]
    split
    · rename_i same
      rw [same, absent] at present
      cases present
    · exact present
  · rw [entry?_put _ nonroot]
    split
    · exact .inr rfl
    · exact .inl missing

end Grown

/-! Paths. -/

theorem walk_eq_ok {disk : Disk} {place other : Place} {name : String} :
    disk.walk place name = .ok other ↔
      disk.entry? place = some .directory ∧ other = FilePath.climb place name := by
  simp only [walk, FilePath.climb]
  constructor
  · intro found
    split at found
    · cases found
    · cases found
    · rename_i directory
      exact ⟨directory, (Except.ok.inj found).symm⟩
  · rintro ⟨directory, rfl⟩
    rw [directory]

theorem foldlM_walk_ok {disk : Disk} {names : List String} {place other : Place}
    (found : names.foldlM disk.walk place = .ok other) :
    other = names.foldl FilePath.climb place ∧
      (names ≠ [] → disk.entry? place = some .directory) := by
  induction names generalizing place with
  | nil =>
      cases found
      exact ⟨rfl, fun none => absurd rfl none⟩
  | cons name names ih =>
      rw [List.foldlM_cons] at found
      cases step : disk.walk place name with
      | error errno => rw [step] at found; cases found
      | ok next =>
          rw [step] at found
          obtain ⟨directory, rfl⟩ := walk_eq_ok.mp step
          exact ⟨(ih found).1, fun _ => directory⟩

theorem locate_ok {disk : Disk} {path : FilePath} {place : Place}
    (found : disk.locate path = .ok place) :
    place = path.resolveFrom disk.workingDirectory :=
  (foldlM_walk_ok found).1

theorem foldl_climb {names : List String} (descending : ".." ∉ names) (place : Place) :
    names.foldl FilePath.climb place = place ++ names := by
  induction names generalizing place with
  | nil => simp
  | cons name names ih =>
      have down : name ≠ ".." := fun same => descending (by simp [same])
      rw [List.foldl_cons, FilePath.climb, if_neg down,
        ih (fun inside => descending (List.mem_cons_of_mem _ inside)), List.append_assoc]
      rfl

theorem locate_descend (disk : Disk) (path : FilePath) (names : List String) :
    disk.locate (path.descend names) =
      disk.locate path >>= fun base => names.foldlM disk.walk base := by
  simp only [locate, FilePath.descend, List.foldlM_append]
  rfl

theorem locate_descend_ok {disk : Disk} {path : FilePath} {names : List String} {place : Place}
    (descending : ".." ∉ names) (found : disk.locate (path.descend names) = .ok place) :
    ∃ base, disk.locate path = .ok base ∧ place = base ++ names ∧
      (names ≠ [] → disk.entry? base = some .directory) := by
  rw [locate_descend] at found
  cases base : disk.locate path with
  | error errno => rw [base] at found; cases found
  | ok at_ =>
      rw [base] at found
      obtain ⟨place_eq, directory⟩ := foldlM_walk_ok found
      exact ⟨at_, rfl, by rw [place_eq, foldl_climb descending], directory⟩

theorem foldlM_walk_of_directory {disk : Disk} (tree : disk.IsTree) {names : List String}
    (descending : ".." ∉ names) {place : Place} (nonempty : names ≠ [])
    (directory : disk.entry? (place ++ names.dropLast) = some .directory) :
    names.foldlM disk.walk place = .ok (place ++ names) := by
  induction names generalizing place with
  | nil => exact absurd rfl nonempty
  | cons name names ih =>
      have down : name ≠ ".." := fun same => descending (by simp [same])
      have here : disk.entry? place = some .directory := by
        by_cases last : (name :: names).dropLast = []
        · simpa [last] using directory
        · exact tree.above last (by simp [directory])
      have step : disk.walk place name = .ok (place ++ [name]) :=
        walk_eq_ok.mpr ⟨here, by rw [FilePath.climb, if_neg down]⟩
      rw [List.foldlM_cons, step]
      cases names with
      | nil => rfl
      | cons second names =>
          have rest := @ih (fun inside => descending (List.mem_cons_of_mem _ inside))
            (place ++ [name]) (by simp) (by simpa using directory)
          rw [List.append_assoc, List.singleton_append] at rest
          exact rest

theorem locate_descend_of_directory {disk : Disk} (tree : disk.IsTree) {path : FilePath}
    {base : Place} (found : disk.locate path = .ok base) {names : List String}
    (descending : ".." ∉ names) (nonempty : names ≠ [])
    (directory : disk.entry? (base ++ names.dropLast) = some .directory) :
    disk.locate (path.descend names) = .ok (base ++ names) := by
  rw [locate_descend, found]
  exact foldlM_walk_of_directory tree descending nonempty directory

/-- What a path leads to is in a directory. -/
theorem locate_parent {disk : Disk} (tree : disk.IsTree) {path : FilePath} {place : Place}
    (found : disk.locate path = .ok place) (nonempty : path.segments ≠ []) (nonroot : place ≠ []) :
    disk.entry? place.dropLast = some .directory := by
  obtain ⟨front, name, split⟩ : ∃ front name, path.segments = front ++ [name] :=
    ⟨_, _, (List.dropLast_concat_getLast nonempty).symm⟩
  rw [locate, split, List.foldlM_append] at found
  cases before : front.foldlM disk.walk (disk.start path) with
  | error errno =>
      rw [before] at found
      cases found
  | ok above =>
      rw [before] at found
      have step : disk.walk above name = .ok place := by
        cases walked : disk.walk above name with
        | error errno =>
            simp [walked, bind, Except.bind] at found
        | ok next => simpa [walked, bind, Except.bind, pure, Except.pure] using found
      obtain ⟨directory, same⟩ := walk_eq_ok.mp step
      rw [FilePath.climb] at same
      split at same
      -- A name of two dots climbs, and what is above a directory is a directory.
      · subst same
        rcases List.eq_nil_or_concat above with rfl | ⟨rest, last, rfl⟩
        · exact absurd rfl nonroot
        · rw [List.concat_eq_append, List.dropLast_concat] at nonroot ⊢
          rcases List.eq_nil_or_concat rest with rfl | ⟨rest, second, rfl⟩
          · exact absurd rfl nonroot
          · rw [List.concat_eq_append, List.dropLast_concat]
            have present : disk.entry? (rest ++ [second, last]) ≠ none := by
              simp only [List.concat_eq_append, List.append_assoc, List.singleton_append]
                at directory
              simp [directory]
            exact tree.above (by simp) present
      · subst same
        rw [List.dropLast_concat]
        exact directory

/-- A path leads to the same place if the directories it goes through are still there. -/
theorem locate_congr {before after : Disk} {path : FilePath} {place : Place}
    (working : after.workingDirectory = before.workingDirectory)
    (directories : ∀ other, (∀ name ∈ other, name ∈ before.start path ∨ name ∈ path.segments) →
      before.entry? other = some .directory → after.entry? other = some .directory)
    (found : before.locate path = .ok place) : after.locate path = .ok place := by
  have walks : ∀ (names : List String) (here : Place), (∀ name ∈ names, name ∈ path.segments) →
      (∀ name ∈ here, name ∈ before.start path ∨ name ∈ path.segments) →
      names.foldlM before.walk here = .ok place → names.foldlM after.walk here = .ok place := by
    intro names
    induction names with
    | nil => exact fun _ _ _ found => found
    | cons name names ih =>
        intro here segments names_ found
        rw [List.foldlM_cons] at found ⊢
        cases step : before.walk here name with
        | error errno => rw [step] at found; cases found
        | ok next =>
            rw [step] at found
            obtain ⟨directory, same⟩ := walk_eq_ok.mp step
            rw [walk_eq_ok.mpr ⟨directories here names_ directory, same⟩]
            refine ih next (fun other inside => segments other (by simp [inside])) ?_ found
            intro other inside
            rw [same, FilePath.climb] at inside
            split at inside
            · exact names_ other (List.dropLast_subset here inside)
            · rcases List.mem_append.mp inside with early | late
              · exact names_ other early
              · exact .inr (segments other (by simp [List.mem_singleton.mp late]))
  have begins : after.start path = before.start path := by simp only [start, working]
  have walked := walks path.segments (before.start path) (fun _ inside => inside)
    (fun _ inside => .inl inside) found
  rw [← begins] at walked
  exact walked

theorem Grown.locate {before after : Disk} (grown : Grown before after) {path : FilePath}
    {place : Place} (found : before.locate path = .ok place) : after.locate path = .ok place :=
  locate_congr grown.working (fun _ _ directory => grown.kept _ _ directory) found

end Disk

end ApiCompiler
