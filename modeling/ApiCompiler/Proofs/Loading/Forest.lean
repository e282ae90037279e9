import Mathlib.Logic.Function.Basic
import Mathlib.Logic.Relation
import ApiCompiler.Loading.Cycle

/-!
The targets on the stack of a search for cycles: those on the path lead to all that were met after
them, each leads back to the path, and the ones down to a target that leads to no older one make up
its cycle.
-/

namespace ApiCompiler.Loading

open Relation

abbrev Step (next : String → List String) (a b : String) : Prop := b ∈ next a

/-- Two targets lead to each other. -/
def Mutual (next : String → List String) (a b : String) : Prop :=
  TransGen (Step next) a b ∧ TransGen (Step next) b a

variable {next : String → List String}

/-! The targets on the stack. -/

/-- The order in which the targets on the stack were met, and where they lead. -/
structure Forest (next : String → List String) (stack path : List String)
    (index low : String → Nat) : Prop where
  ordered : stack.Pairwise fun newer older => index older < index newer
  onStack : ∀ key ∈ path, key ∈ stack
  descending : path.Pairwise fun newer older => index older < index newer
  reaches : ∀ key ∈ path, ∀ other ∈ stack, index key ≤ index other →
    ReflTransGen (Step next) key other
  returns : ∀ other ∈ stack, ∃ key ∈ path, index key ≤ index other ∧
    ReflTransGen (Step next) other key
  low_le : ∀ key ∈ path, low key ≤ index key
  attained : ∀ key ∈ path, ∃ other ∈ stack, index other = low key ∧
    ReflTransGen (Step next) key other

namespace Forest

variable {stack path newer older : List String} {index low index' low' : String → Nat}
  {key : String}

theorem nil : Forest next [] [] index low :=
  ⟨.nil, nofun, .nil, nofun, nofun, nofun, nofun⟩

theorem congr (forest : Forest next stack path index low)
    (same : ∀ other ∈ stack, index' other = index other)
    (sameLow : ∀ other ∈ stack, low' other = low other) : Forest next stack path index' low' := by
  have onPath : ∀ other ∈ path, index' other = index other := fun other inside =>
    same other (forest.onStack other inside)
  refine ⟨forest.ordered.imp_of_mem fun one other apart => ?_, forest.onStack,
    forest.descending.imp_of_mem fun one other apart => ?_, fun p inside other listed before => ?_,
    fun other listed => ?_, fun p inside => ?_, fun p inside => ?_⟩
  · rwa [same _ one, same _ other]
  · rwa [onPath _ one, onPath _ other]
  · rw [onPath p inside, same other listed] at before
    exact forest.reaches p inside other listed before
  · obtain ⟨p, inside, before, back⟩ := forest.returns other listed
    exact ⟨p, inside, by rwa [onPath p inside, same other listed], back⟩
  · rw [onPath p inside, sameLow p (forest.onStack p inside)]
    exact forest.low_le p inside
  · obtain ⟨other, listed, number, there⟩ := forest.attained p inside
    exact ⟨other, listed, by rw [same other listed, sameLow p (forest.onStack p inside), number],
      there⟩

theorem index_le_newest (forest : Forest next stack (key :: path) index low) {p : String}
    (inside : p ∈ key :: path) : index p ≤ index key := by
  rcases List.mem_cons.mp inside with rfl | earlier
  · exact Nat.le_refl _
  · exact Nat.le_of_lt ((List.pairwise_cons.mp forest.descending).1 p earlier)

theorem enter (forest : Forest next stack path index low)
    (newest : ∀ other ∈ stack, index other < index key) (itself : low key = index key)
    (refers : ∀ parent ∈ path.head?, key ∈ next parent) :
    Forest next (key :: stack) (key :: path) index low := by
  have fromPath : ∀ p ∈ path, ReflTransGen (Step next) p key := by
    intro p inside
    cases path with
    | nil => cases inside
    | cons parent path =>
        have there := forest.reaches p inside parent (forest.onStack _ List.mem_cons_self)
          (forest.index_le_newest inside)
        exact there.tail (refers parent rfl)
  refine ⟨List.pairwise_cons.mpr ⟨newest, forest.ordered⟩,
    List.forall_mem_cons.mpr ⟨List.mem_cons_self, fun p inside =>
      List.mem_cons_of_mem _ (forest.onStack p inside)⟩,
    List.pairwise_cons.mpr ⟨fun p inside => newest p (forest.onStack p inside), forest.descending⟩,
    List.forall_mem_cons.mpr ⟨?_, ?_⟩, List.forall_mem_cons.mpr ⟨?_, ?_⟩,
    List.forall_mem_cons.mpr ⟨Nat.le_of_eq itself, forest.low_le⟩,
    List.forall_mem_cons.mpr ⟨?_, ?_⟩⟩
  · refine List.forall_mem_cons.mpr ⟨fun _ => .refl, fun other listed before => ?_⟩
    exact absurd (newest other listed) (Nat.not_lt.mpr before)
  · exact fun p inside =>
      List.forall_mem_cons.mpr ⟨fun _ => fromPath p inside, forest.reaches p inside⟩
  · exact ⟨key, List.mem_cons_self, Nat.le_refl _, .refl⟩
  · intro other listed
    obtain ⟨p, inside, before, back⟩ := forest.returns other listed
    exact ⟨p, List.mem_cons_of_mem _ inside, before, back⟩
  · exact ⟨key, List.mem_cons_self, itself.symm, .refl⟩
  · intro p inside
    obtain ⟨other, listed, number, there⟩ := forest.attained p inside
    exact ⟨other, List.mem_cons_of_mem _ listed, number, there⟩

theorem lower (forest : Forest next stack path index low) (inside : key ∈ path) {number : Nat}
    (found : ∃ other ∈ stack, index other = number ∧ ReflTransGen (Step next) key other) :
    Forest next stack path index (Function.update low key (min (low key) number)) := by
  refine ⟨forest.ordered, forest.onStack, forest.descending, forest.reaches, forest.returns,
    fun p onPath => ?_, fun p onPath => ?_⟩
  · by_cases here : p = key
    · rw [here, Function.update_self]
      exact Nat.le_trans (Nat.min_le_left ..) (forest.low_le key inside)
    · rw [Function.update_of_ne here]
      exact forest.low_le p onPath
  · by_cases here : p = key
    · rw [here, Function.update_self]
      rcases Nat.le_total (low key) number with less | more
      · rw [Nat.min_eq_left less]
        exact forest.attained key inside
      · rw [Nat.min_eq_right more]
        exact found
    · rw [Function.update_of_ne here]
      exact forest.attained p onPath

theorem back (forest : Forest next stack (key :: path) index low) (less : low key < index key) :
    Forest next stack path index low := by
  obtain ⟨onStack, rest⟩ := List.forall_mem_cons.mp forest.onStack
  refine ⟨forest.ordered, rest, (List.pairwise_cons.mp forest.descending).2,
    (List.forall_mem_cons.mp forest.reaches).2, fun other listed => ?_,
    (List.forall_mem_cons.mp forest.low_le).2, (List.forall_mem_cons.mp forest.attained).2⟩
  obtain ⟨p, inside, before, there⟩ := forest.returns other listed
  rcases List.mem_cons.mp inside with rfl | earlier
  · -- What led back to the target that is left leads on, and so back to an older one.
    obtain ⟨old, known, number, onward⟩ := forest.attained p List.mem_cons_self
    obtain ⟨q, among, older, back⟩ := forest.returns old known
    have apart : q ≠ p := by
      rintro rfl
      omega
    exact ⟨q, (List.mem_cons.mp among).resolve_left apart, by omega,
      there.trans (onward.trans back)⟩
  · exact ⟨p, earlier, before, there⟩

/-! A target all of whose references were followed. -/

section Whole

variable (forest : Forest next (newer ++ key :: older) (key :: path) index low)
include forest

theorem mem_newer {other : String} (listed : other ∈ newer ++ key :: older) :
    index key ≤ index other → other ∈ newer ++ [key] := by
  intro after
  obtain ⟨-, below, -⟩ := List.pairwise_append.mp forest.ordered
  rcases List.mem_append.mp listed with inside | inside
  · exact List.mem_append_left _ inside
  · rcases List.mem_cons.mp inside with rfl | late
    · simp
    · exact absurd ((List.pairwise_cons.mp below).1 other late) (Nat.not_lt.mpr after)

theorem index_le_of_newer {other : String} (inside : other ∈ newer ++ [key]) :
    other ∈ newer ++ key :: older ∧ index key ≤ index other := by
  obtain ⟨-, -, across⟩ := List.pairwise_append.mp forest.ordered
  rcases List.mem_append.mp inside with early | here
  · exact ⟨List.mem_append_left _ early, Nat.le_of_lt (across other early key List.mem_cons_self)⟩
  · rw [List.mem_singleton.mp here]
    exact ⟨by simp, Nat.le_refl _⟩

theorem index_lt_of_older {other : String} (inside : other ∈ older) : index other < index key :=
  (List.pairwise_cons.mp (List.pairwise_append.mp forest.ordered).2.1).1 other inside

theorem index_lt_of_path {p : String} (inside : p ∈ path) : index p < index key :=
  (List.pairwise_cons.mp forest.descending).1 p inside

theorem mem_older {other : String} (listed : other ∈ newer ++ key :: older)
    (before : index other < index key) : other ∈ older := by
  obtain ⟨-, -, across⟩ := List.pairwise_append.mp forest.ordered
  rcases List.mem_append.mp listed with inside | inside
  · exact absurd (across other inside key List.mem_cons_self) (Nat.not_lt.mpr (Nat.le_of_lt before))
  · exact (List.mem_cons.mp inside).resolve_left fun same => Nat.lt_irrefl _ (same ▸ before)

theorem distinct : (newer ++ [key]).Nodup := by
  have all : (newer ++ key :: older).Nodup := by
    refine forest.ordered.imp ?_
    rintro one _ apart rfl
    exact Nat.lt_irrefl _ apart
  exact all.sublist ((List.singleton_sublist.mpr List.mem_cons_self).append_left newer)

/-- The targets from the newest one down to this lead to it, and it leads to them. -/
theorem together {other : String} (inside : other ∈ newer ++ [key]) :
    ReflTransGen (Step next) key other ∧ ReflTransGen (Step next) other key := by
  obtain ⟨listed, after⟩ := forest.index_le_of_newer inside
  refine ⟨forest.reaches key List.mem_cons_self other listed after, ?_⟩
  obtain ⟨p, onPath, -, back⟩ := forest.returns other listed
  exact back.trans (forest.reaches p onPath key (by simp) (forest.index_le_newest onPath))

theorem close : Forest next older path index low := by
  have keep : ∀ other ∈ older, other ∈ newer ++ key :: older := fun other inside => by simp [inside]
  refine ⟨(List.pairwise_cons.mp (List.pairwise_append.mp forest.ordered).2.1).2,
    fun p inside => ?_, (List.pairwise_cons.mp forest.descending).2,
    fun p inside other listed => ?_, fun other listed => ?_,
    (List.forall_mem_cons.mp forest.low_le).2, fun p inside => ?_⟩
  · exact forest.mem_older (forest.onStack p (List.mem_cons_of_mem _ inside))
      (forest.index_lt_of_path inside)
  · exact forest.reaches p (List.mem_cons_of_mem _ inside) other (keep other listed)
  · obtain ⟨p, inside, before, back⟩ := forest.returns other (keep other listed)
    have apart : p ≠ key := by
      rintro rfl
      exact absurd (forest.index_lt_of_older listed) (Nat.not_lt.mpr before)
    exact ⟨p, (List.mem_cons.mp inside).resolve_left apart, before, back⟩
  · obtain ⟨other, listed, number, there⟩ := forest.attained p (List.mem_cons_of_mem _ inside)
    have small := forest.low_le p (List.mem_cons_of_mem _ inside)
    have before := forest.index_lt_of_path inside
    exact ⟨other, forest.mem_older listed (by omega), number, there⟩

end Whole

end Forest

/-! The cycle that targets make up. -/

namespace Search

variable {newer : List String} {key : String}

/--
Targets that lead to each other, and with any target that leads back to them, make up the cycle of
each of them.
-/
theorem mem_cycleAmong (distinct : (newer ++ [key]).Nodup)
    (together : ∀ other ∈ newer ++ [key],
      ReflTransGen (Step next) key other ∧ ReflTransGen (Step next) other key)
    (whole : ∀ member ∈ newer ++ [key], ∀ other, TransGen (Step next) member other →
      ReflTransGen (Step next) other member → other ∈ newer ++ [key])
    {member other : String} (inside : member ∈ newer ++ [key]) :
    other ∈ cycleAmong next (newer ++ [key]) key ↔ Mutual next member other := by
  have last : key ∈ newer ++ [key] := by simp
  -- One target alone is the case apart: it lies on a cycle only if it leads to itself.
  have around : TransGen (Step next) key key ↔ ¬(newer = [] ∧ key ∉ next key) := by
    constructor
    · rintro circle ⟨rfl, apart⟩
      obtain ⟨first, step, back⟩ := TransGen.head'_iff.mp circle
      have same := whole key last first (.single step) back
      rw [List.nil_append, List.mem_singleton] at same
      exact apart (same ▸ step)
    · intro more
      by_cases itself : key ∈ next key
      · exact .single itself
      · obtain ⟨one, among⟩ := List.exists_mem_of_ne_nil newer fun none => more ⟨none, itself⟩
        obtain ⟨there, back⟩ := together one (List.mem_append_left _ among)
        have apart : one ≠ key :=
          (List.nodup_append.mp distinct).2.2 one among key (List.mem_singleton.mpr rfl)
        exact ((reflTransGen_iff_eq_or_transGen.mp there).resolve_left apart).trans_left back
  have alone : (decide ((newer ++ [key]).length = 1) && !(next key).contains key) = true ↔
      newer = [] ∧ key ∉ next key := by
    simp
  rw [cycleAmong]
  constructor
  · intro listed
    split at listed
    · cases listed
    · rename_i more
      have circle := around.mpr fun lone => more (alone.mpr lone)
      obtain ⟨thereMember, backMember⟩ := together member inside
      obtain ⟨thereOther, backOther⟩ := together other listed
      exact ⟨.trans_right backMember (circle.trans_left thereOther),
        .trans_right backOther (circle.trans_left thereMember)⟩
  · rintro ⟨there, back⟩
    rw [if_neg]
    · exact whole member inside other there back.to_reflTransGen
    · intro lone
      obtain ⟨thereMember, backMember⟩ := together member inside
      exact around.mp (.trans_right thereMember ((there.trans back).trans_left backMember))
        (alone.mp lone)

theorem cycleAmong_nodup {members : List String} (distinct : members.Nodup) :
    (cycleAmong next members key).Nodup := by
  rw [cycleAmong]
  split
  · exact .nil
  · exact distinct

end Search

end ApiCompiler.Loading
