import ApiCompiler.Emission.FileEmitter
import ApiCompiler.Proofs.World.Steps

/-!
What an action of an emission leads to, on the disk and in the list of files moved into place,
whether or not one of its steps is refused.
-/

namespace ApiCompiler

open Disk

theorem Drive.attempt_cases (drive : Drive) (step : DiskStep) :
    ((drive.attempt step).1, (drive.attempt step).2.disk) = drive.disk.apply step ∨
      ∃ fault, (drive.attempt step).1 = .error fault ∧
        ((drive.attempt step).2.disk = drive.disk ∨
          ∃ extent, (drive.attempt step).2.disk = drive.disk.applyPartly extent step) := by
  rw [attempt]
  split
  · exact .inl rfl
  · rename_i extent _
    refine .inr ⟨_, rfl, ?_⟩
    cases extent with
    | none => exact .inl rfl
    | some extent => exact .inr ⟨extent, rfl⟩
  · exact .inl rfl

namespace Emission

abbrev Assertion := Disk → List Placement → Prop

/-- What is known when an action has come to its end or has broken off. -/
def Outcome {α : Type} (after : α → Assertion) (broken : Assertion) :
    Except DiskFault α × Progress → Prop
  | (.ok a, progress) => after a progress.drive.disk progress.placed
  | (.error _, progress) => broken progress.drive.disk progress.placed

/-- An action leads from what is known before it to what is known after it, or when it breaks off. -/
def Leads {α : Type} (before : Assertion) (action : Emitting α) (after : α → Assertion)
    (broken : Assertion) : Prop :=
  ∀ progress, before progress.drive.disk progress.placed →
    Outcome after broken (action.run progress)

namespace Leads

variable {α β : Type} {before broken : Assertion} {after : α → Assertion}

theorem pure {a : α} (known : ∀ disk placed, before disk placed → after a disk placed) :
    Leads before (Pure.pure a) after broken :=
  fun _ holds => known _ _ holds

theorem bind {action : Emitting α} {next : α → Emitting β} {final : β → Assertion}
    (first : Leads before action after broken)
    (rest : ∀ a, Leads (after a) (next a) final broken) :
    Leads before (action >>= next) final broken := by
  intro progress known
  have reached := first progress known
  have unfolded : (action >>= next).run progress =
      ExceptT.bindCont next (action.run progress).1 (action.run progress).2 := rfl
  rw [unfolded]
  revert reached
  rcases action.run progress with ⟨result, middle⟩
  intro reached
  cases result with
  | ok a => exact rest a middle reached
  | error fault => exact reached

theorem mono {action : Emitting α} {before' broken' : Assertion} {after' : α → Assertion}
    (leads : Leads before action after broken)
    (weaker : ∀ disk placed, before' disk placed → before disk placed)
    (stronger : ∀ a disk placed, after a disk placed → after' a disk placed)
    (breaks : ∀ disk placed, broken disk placed → broken' disk placed) :
    Leads before' action after' broken' := by
  intro progress known
  have reached := leads progress (weaker _ _ known)
  revert reached
  rcases action.run progress with ⟨result, middle⟩
  intro reached
  cases result with
  | ok a => exact stronger a _ _ reached
  | error fault => exact breaks _ _ reached

/-- A loop keeps what its body keeps, which may speak of the items done so far. -/
theorem forM {items : List α} {body : α → Emitting Unit} (known : List α → Assertion)
    (step : ∀ front item back, items = front ++ item :: back →
      Leads (known front) (body item) (fun _ => known (front ++ [item])) broken) :
    Leads (known []) (items.forM body) (fun _ => known items) broken := by
  have run : ∀ back front, items = front ++ back →
      Leads (known front) (back.forM body) (fun _ => known items) broken := by
    intro back
    induction back with
    | nil =>
        intro front whole
        rw [List.append_nil] at whole
        exact pure fun _ _ holds => whole ▸ holds
    | cons item back ih =>
        intro front whole
        exact bind (step front item back whole) fun _ => ih (front ++ [item]) (by simp [whole])
  exact run items [] rfl

/-! Steps. -/

theorem take {step : DiskStep} {after : Unit → Assertion}
    (taken : ∀ disk placed, before disk placed → (disk.apply step).1 = .ok () →
      after () (disk.apply step).2 placed)
    (refused : ∀ disk placed fault, before disk placed → (disk.apply step).1 = .error fault →
      broken (disk.apply step).2 placed)
    (untouched : ∀ disk placed, before disk placed → broken disk placed)
    (partly : ∀ disk placed extent, before disk placed →
      broken (disk.applyPartly extent step) placed) :
    Leads before (Emission.take step) after broken := by
  intro progress known
  have run : (Emission.take step).run progress =
      ((progress.drive.attempt step).1,
        { progress with drive := (progress.drive.attempt step).2 }) := rfl
  rw [run]
  have cases := progress.drive.attempt_cases step
  revert cases
  rcases progress.drive.attempt step with ⟨result, drive⟩
  rintro (same | ⟨fault, rfl, same | ⟨extent, same⟩⟩)
  · have complete := taken _ _ known
    have cut := fun fault => refused _ _ fault known
    rw [← same] at complete cut
    cases result with
    | ok _ => exact complete rfl
    | error fault => exact cut fault rfl
  · exact (congrArg (broken · progress.placed) same).mpr (untouched _ _ known)
  · exact (congrArg (broken · progress.placed) same).mpr (partly _ _ extent known)

theorem look {path : FilePath}
    (untouched : ∀ disk placed, before disk placed → broken disk placed) :
    Leads before (Emission.take (.look path)) (fun _ => before) broken :=
  take (fun _ _ known _ => known) (fun _ _ _ _ => nofun) untouched (fun _ _ _ => untouched _ _)

theorem holds {path : FilePath}
    (untouched : ∀ disk placed, before disk placed → broken disk placed) :
    Leads before (Emission.holds path)
      (fun present disk placed => before disk placed ∧ present = disk.holds path) broken :=
  bind (look untouched) fun _ _ known => ⟨known, rfl⟩

theorem isDirectory {path : FilePath}
    (untouched : ∀ disk placed, before disk placed → broken disk placed) :
    Leads before (Emission.isDirectory path)
      (fun directory disk placed => before disk placed ∧ directory = disk.isDirectory path) broken :=
  bind (look untouched) fun _ _ known => ⟨known, rfl⟩

theorem list {path : FilePath}
    (untouched : ∀ disk placed, before disk placed → broken disk placed) :
    Leads before (Emission.list path)
      (fun names disk placed => before disk placed ∧ disk.list path = .ok names) broken := by
  refine bind (look untouched) fun _ progress known => ?_
  cases listed : progress.drive.disk.list path with
  | ok names => exact (congrArg (Outcome _ broken) (congrArg (·, progress) listed)).mpr ⟨known, listed⟩
  | error fault => exact (congrArg (Outcome _ broken) (congrArg (·, progress) listed)).mpr (untouched _ _ known)

theorem makeDirectories {path : FilePath} {after : Unit → Assertion}
    (sound : ∀ disk placed, before disk placed → disk.IsTree ∧ disk.Anchored path)
    (made : ∀ disk new placed, before disk placed → Made disk new path →
      new.isDirectory path = true → after () new placed)
    (failed : ∀ disk new placed, before disk placed → Made disk new path → broken new placed) :
    Leads before (Emission.take (.makeDirectories path)) after broken := by
  apply take
  · intro disk placed known ok
    obtain ⟨tree, anchored⟩ := sound _ _ known
    have spec := makeDirectories_made path tree anchored
    exact made _ _ _ known spec.1 (spec.2 ok)
  · intro disk placed _ known _
    obtain ⟨tree, anchored⟩ := sound _ _ known
    exact failed _ _ _ known (makeDirectories_made path tree anchored).1
  · intro disk placed known
    exact failed _ _ _ known (Made.refl (sound _ _ known).1 path)
  · intro disk placed extent known
    obtain ⟨tree, anchored⟩ := sound _ _ known
    have front := (makeDirectories_made ⟨path.isAbsolute, path.segments.take extent⟩ tree anchored).1
    exact failed _ _ _ known (front.extend (List.take_prefix ..))

theorem write {path : FilePath} {text : String} {after : Unit → Assertion}
    (written : ∀ disk placed place, before disk placed → disk.locate path = .ok place →
      disk.entry? place ≠ some .directory → after () (disk.put place (.file text.toUTF8)) placed)
    (failed : ∀ disk placed place bytes, before disk placed → disk.locate path = .ok place →
      disk.entry? place ≠ some .directory → broken (disk.put place (.file bytes)) placed)
    (untouched : ∀ disk placed, before disk placed → broken disk placed) :
    Leads before (Emission.take (.write path text)) after broken := by
  apply take
  · intro disk placed known ok
    obtain ⟨place, found, other, same⟩ := write_ok (changed_ok ok)
    exact same ▸ written _ _ _ known found other
  · intro disk placed fault known refused
    exact (congrArg (broken · placed) (changed_error refused)).mpr (untouched _ _ known)
  · exact untouched
  · intro disk placed extent known
    rw [applyPartly]
    cases outcome : disk.write path (text.toUTF8.extract 0 extent) with
    | ok new =>
        obtain ⟨place, found, other, rfl⟩ := write_ok outcome
        exact failed _ _ _ _ known found other
    | error fault => exact untouched _ _ known

theorem move {source target : FilePath} {after : Unit → Assertion}
    (moved : ∀ disk new placed a b, before disk placed → disk.locate source = .ok a →
      disk.locate target = .ok b → (a = b ∧ new = disk ∨ Apart a b ∧ new = disk.transfer a b) →
      after () new placed)
    (untouched : ∀ disk placed, before disk placed → broken disk placed) :
    Leads before (Emission.take (.move source target)) after broken := by
  apply take
  · intro disk placed known ok
    obtain ⟨a, b, foundSource, foundTarget, result⟩ := move_ok (changed_ok ok)
    exact moved _ _ _ _ _ known foundSource foundTarget result
  · intro disk placed fault known refused
    exact (congrArg (broken · placed) (changed_error refused)).mpr (untouched _ _ known)
  · exact untouched
  · exact fun disk placed _ => untouched disk placed

theorem remove {path : FilePath} {after : Unit → Assertion}
    (removed : ∀ disk placed place bytes, before disk placed → disk.locate path = .ok place →
      disk.entry? place = some (.file bytes) → after () (disk.erase place) placed)
    (untouched : ∀ disk placed, before disk placed → broken disk placed) :
    Leads before (Emission.take (.remove path)) after broken := by
  apply take
  · intro disk placed known ok
    obtain ⟨place, bytes, found, present, same⟩ := remove_ok (changed_ok ok)
    exact same ▸ removed _ _ _ _ known found present
  · intro disk placed fault known refused
    exact (congrArg (broken · placed) (changed_error refused)).mpr (untouched _ _ known)
  · exact untouched
  · exact fun disk placed _ => untouched disk placed

theorem removeDirectory {path : FilePath} {after : Unit → Assertion}
    (removed : ∀ disk placed place, before disk placed → disk.locate path = .ok place →
      after () (disk.erase place) placed)
    (untouched : ∀ disk placed, before disk placed → broken disk placed) :
    Leads before (Emission.take (.removeDirectory path)) after broken := by
  apply take
  · intro disk placed known ok
    obtain ⟨place, found, same⟩ := removeDirectory_ok (changed_ok ok)
    exact same ▸ removed _ _ _ known found
  · intro disk placed fault known refused
    exact (congrArg (broken · placed) (changed_error refused)).mpr (untouched _ _ known)
  · exact untouched
  · exact fun disk placed _ => untouched disk placed

end Leads

end Emission

end ApiCompiler
