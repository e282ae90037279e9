import Mathlib.Data.List.Basic
import ApiCompiler.Script.Layout

/-!
The lines that blocks add to a page. Where no line ends in a blank, nothing is trimmed, and the text
is that of the steps behind the margins of their levels.
-/

namespace ApiCompiler.Script

def marginOf (indent : String) (level : Nat) : String :=
  String.join (List.replicate level indent)

theorem toList_marginOf (indent : String) (level : Nat) :
    (marginOf indent level).toList = (List.replicate level indent.toList).flatten := by
  rw [marginOf, String.toList_join, List.flatMap_def, List.map_replicate]

theorem marginOf_succ (indent : String) (level : Nat) :
    (marginOf indent (level + 1)).toList = indent.toList ++ (marginOf indent level).toList := by
  rw [toList_marginOf, toList_marginOf, List.replicate_succ, List.flatten_cons]

theorem marginOf_succ_eq_append (indent : String) (level : Nat) :
    (marginOf indent (level + 1)).toList = (marginOf indent level).toList ++ indent.toList := by
  rw [toList_marginOf, toList_marginOf, List.replicate_succ', List.flatten_concat]

def IsSolid (text : String) : Prop :=
  ∃ front c, text.toList = front ++ [c] ∧ Text.isBlank c = false

theorem trimRight_concat {c : Char} (solid : Text.isBlank c = false) (text : List Char) :
    Text.trimRight (text ++ [c]) = text ++ [c] := by
  simp [Text.trimRight, solid]

namespace IsSolid

variable {text : String}

theorem append (solid : IsSolid text) (front : String) : IsSolid (front ++ text) := by
  obtain ⟨lead, c, letters, dark⟩ := solid
  exact ⟨front.toList ++ lead, c, by simp [letters], dark⟩

theorem trimBlanksRight (solid : IsSolid text) : text.trimBlanksRight = text := by
  obtain ⟨lead, c, letters, dark⟩ := solid
  rw [String.trimBlanksRight, letters, trimRight_concat dark, ← letters, String.ofList_toList]

theorem ne_empty (solid : IsSolid text) : text ≠ "" := by
  rintro rfl
  obtain ⟨lead, c, letters, -⟩ := solid
  simp at letters

end IsSolid

mutual
/-- The lines of a step that begins on a line of its own and ends the last one. -/
def Step.lines (indent : String) : (level : Nat) → Step → List String
  | level, .line text => [marginOf indent level ++ text]
  | level, .block opener closer body =>
      (marginOf indent level ++ opener) :: linesOf indent (level + 1) body ++
        [marginOf indent level ++ closer]
  | level, .indented body => linesOf indent (level + 1) body
  | _, .write _ => []
  | _, .blankLine => []

def linesOf (indent : String) : (level : Nat) → List Step → List String
  | _, [] => []
  | level, first :: rest => first.lines indent level ++ linesOf indent level rest
end

theorem linesOf_append (indent : String) (level : Nat) (first second : List Step) :
    linesOf indent level (first ++ second) =
      linesOf indent level first ++ linesOf indent level second := by
  induction first with
  | nil => rfl
  | cons step first ih => rw [List.cons_append, linesOf, ih, linesOf, List.append_assoc]

theorem linesOf_map {α : Type} (indent : String) (level : Nat) (stepOf : α → Step) (list : List α) :
    linesOf indent level (list.map stepOf) =
      list.flatMap fun a => (stepOf a).lines indent level := by
  induction list with
  | nil => rfl
  | cons first rest ih => rw [List.map_cons, linesOf, ih, List.flatMap_cons]

mutual
/-- Steps that write whole lines, none of which is empty or ends in a blank. -/
inductive Step.Solid : Step → Prop
  | line {text : String} : IsSolid text → (Step.line text).Solid
  | block {opener closer : String} {body : List Step} : IsSolid opener → IsSolid closer →
      AllSolid body → (Step.block opener closer body).Solid
  | indented {body : List Step} : AllSolid body → (Step.indented body).Solid

inductive AllSolid : List Step → Prop
  | nil : AllSolid []
  | cons {first : Step} {rest : List Step} : first.Solid → AllSolid rest → AllSolid (first :: rest)
end

theorem AllSolid.of_forall {list : List Step} (each : ∀ first ∈ list, first.Solid) :
    AllSolid list := by
  induction list with
  | nil => exact .nil
  | cons first rest ih =>
      obtain ⟨here, later⟩ := List.forall_mem_cons.mp each
      exact .cons here (ih later)

theorem AllSolid.append {first second : List Step} (front : AllSolid first)
    (back : AllSolid second) : AllSolid (first ++ second) := by
  induction first with
  | nil => exact back
  | cons step first ih =>
      cases front with
      | cons here later => exact .cons here (ih later)

namespace Page

theorem line_solid {text : String} (solid : IsSolid text) (page : Page) :
    page.line text =
      { page with
        finished := page.finished.push (page.pending.getD page.margin ++ text)
        pending := none } := by
  simp [Page.line, Page.write, solid.ne_empty, (solid.append _).trimBlanksRight]

mutual
theorem step_solid {first : Step} (solid : first.Solid) (indent : String) (level : Nat)
    (finished : Array String) :
    step first ⟨indent, level, finished, none⟩ =
      ⟨indent, level, finished ++ (first.lines indent level).toArray, none⟩ := by
  cases solid with
  | line whole =>
      rw [step, line_solid whole, Step.lines]
      rfl
  | block opens closes body =>
      rw [step, line_solid opens]
      simp only [steps_solid body, line_solid closes, Step.lines]
      simp [margin, marginOf]
  | indented body =>
      simp only [step, steps_solid body, Step.lines, Nat.add_sub_cancel]

theorem steps_solid {list : List Step} (solid : AllSolid list) (indent : String) (level : Nat)
    (finished : Array String) :
    steps list ⟨indent, level, finished, none⟩ =
      ⟨indent, level, finished ++ (linesOf indent level list).toArray, none⟩ := by
  cases solid with
  | nil => simp [steps, linesOf]
  | cons first rest =>
      rw [steps, step_solid first, steps_solid rest, linesOf]
      simp
end

/-- The text of the lines that a step adds to a page, and of the one that it ends. -/
def added (page : Page) (first : Step) : String :=
  String.intercalate "\n" ((page.step first).lines.drop page.finished.size)

theorem added_block {opener closer : String} {body : List Step} (opens : IsSolid opener)
    (closes : IsSolid closer) (solid : AllSolid body) (page : Page) :
    page.added (.block opener closer body) =
      String.intercalate "\n"
        ((page.pending.getD page.margin ++ opener) :: linesOf page.indent (page.level + 1) body ++
          [page.margin ++ closer]) := by
  rw [added, step, line_solid opens]
  simp only [steps_solid solid, line_solid closes]
  simp [lines, margin]

end Page

theorem layout_of_solid {list : List Step} (solid : AllSolid list) :
    layout list = String.intercalate "\n" (linesOf standardIndent 0 list) := by
  rw [layout, Page.empty, Page.steps_solid solid]
  simp [Page.text, Page.lines]

/-! Lines one after the other. -/

/-- A text in which every line ends in a line feed. -/
def ended (lines : List String) : List Char :=
  lines.flatMap fun line => line.toList ++ ['\n']

theorem toList_intercalate_lines (lines : List String) (last : String) :
    (String.intercalate "\n" (lines ++ [last])).toList = ended lines ++ last.toList := by
  induction lines with
  | nil => simp [ended]
  | cons line lines ih =>
      obtain ⟨next, others, more⟩ := List.exists_cons_of_ne_nil
        (List.append_ne_nil_of_right_ne_nil lines (List.cons_ne_nil last []))
      rw [List.cons_append, more, String.intercalate_cons_cons, ← more, String.toList_append,
        String.toList_append, ih]
      simp [ended]

theorem ended_flatMap {α : Type} (linesFor : α → List String) (list : List α) :
    ended (list.flatMap linesFor) = list.flatMap fun a => ended (linesFor a) :=
  List.flatMap_assoc

end ApiCompiler.Script
