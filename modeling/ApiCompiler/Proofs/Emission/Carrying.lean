import ApiCompiler.Proofs.Emission.Undoing

/-!
Where the texts of an emission are while it goes on: first in the staging directory, then, one after the
other, at their targets.
-/

namespace ApiCompiler.Emission

open Disk

def segmentsOf (name : String) : List String :=
  (FilePath.ofText name).segments

namespace Site

variable {site : Site}

/-- The texts at the front have come to their targets, and those at the back are staged. -/
structure Carried (site : Site) (front back : List (String × String)) (disk : Disk) : Prop where
  delivered : ∀ text ∈ front,
    disk.entry? (site.target (segmentsOf text.1)) = some (.file text.2.toUTF8)
  waiting : ∀ text ∈ back,
    disk.entry? (site.next (segmentsOf text.1)) = some (.file text.2.toUTF8)

theorem apart_next (site : Site) {first second : List String} (apart : Apart first second) :
    Apart (site.next first) (site.next second) := by
  refine Apart.append_left ⟨fun inside => ?_, fun inside => ?_⟩ _
  · exact apart.1 (List.cons_prefix_cons.mp inside).2
  · exact apart.2 (List.cons_prefix_cons.mp inside).2

theorem apart_target (site : Site) {first second : List String} (apart : Apart first second) :
    Apart (site.target first) (site.target second) :=
  apart.append_left _

namespace Carried

variable {disk : Disk} {front back : List (String × String)} {name text : String}

theorem nothing (site : Site) (disk : Disk) : site.Carried [] [] disk := ⟨nofun, nofun⟩

theorem grow (carried : site.Carried front back disk) {after : Disk} (grown : Grown disk after) :
    site.Carried front back after :=
  ⟨fun item inside => grown.kept _ _ (carried.delivered item inside),
    fun item inside => grown.kept _ _ (carried.waiting item inside)⟩

theorem stage (carried : site.Carried [] back disk)
    (new : ∀ item ∈ back, segmentsOf item.1 ≠ segmentsOf name) :
    site.Carried [] (back ++ [(name, text)])
      (disk.put (site.next (segmentsOf name)) (.file text.toUTF8)) := by
  refine ⟨nofun, fun item inside => ?_⟩
  rw [entry?_put _ (by simp [next])]
  rcases List.mem_append.mp inside with earlier | last
  · rw [if_neg fun same => new item earlier (by simpa [next] using same)]
    exact carried.waiting item earlier
  · rw [List.mem_singleton.mp last, if_pos rfl]

variable (allowed : ∀ item ∈ front ++ back, site.Allows (segmentsOf item.1))
  (allows : site.Allows (segmentsOf name))
  (apart : ∀ item ∈ front ++ back, Apart (segmentsOf name) (segmentsOf item.1))
include allowed allows apart

theorem setAside (carried : site.Carried front ((name, text) :: back) disk) :
    site.Carried front ((name, text) :: back)
      (disk.transfer (site.target (segmentsOf name)) (site.aside (segmentsOf name))) := by
  have between := allows.apart_aside (segmentsOf name)
  refine ⟨fun item inside => ?_, fun item inside => ?_⟩
  · have early := List.mem_append_left back inside
    rw [entry?_transfer _ between, if_neg ((allowed item early).apart_aside _).2,
      if_neg (site.apart_target (apart item early)).1]
    exact carried.delivered item inside
  · rw [entry?_transfer _ between, if_neg (apart_next_aside ..).2, if_neg (allows.apart_next _).1]
    exact carried.waiting item inside

theorem moveNext (carried : site.Carried front ((name, text) :: back) disk) :
    site.Carried (front ++ [(name, text)]) back
      (disk.transfer (site.next (segmentsOf name)) (site.target (segmentsOf name))) := by
  have between := (allows.apart_next (segmentsOf name)).symm
  refine ⟨fun item inside => ?_, fun item inside => ?_⟩
  · rw [entry?_transfer _ between]
    rcases List.mem_append.mp inside with earlier | last
    · have early := List.mem_append_left back earlier
      rw [if_neg (site.apart_target (apart item early)).1,
        if_neg ((allowed item early).apart_next _).2]
      exact carried.delivered item earlier
    · rw [List.mem_singleton.mp last, if_pos (List.prefix_refl _), List.drop_length,
        List.append_nil]
      exact carried.waiting (name, text) List.mem_cons_self
  · have late := List.mem_append_right front inside
    rw [entry?_transfer _ between, if_neg (allows.apart_next _).1,
      if_neg (site.apart_next (apart item late)).1]
    exact carried.waiting item (List.mem_cons_of_mem _ inside)

end Carried

end Site

end ApiCompiler.Emission
