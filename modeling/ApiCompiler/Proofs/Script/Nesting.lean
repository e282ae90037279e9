import ApiCompiler.Proofs.Script.Lines
import ApiCompiler.Proofs.Text.Blank

/-!
Pages follow the nesting of their steps: a line is indented by the depth at which its first piece is
written, nothing but blanks is lost, and blank lines do not pile up.
-/

namespace ApiCompiler.Script

/-! Marks that steps make. -/

structure Fragment where
  depth : Nat
  text : String

inductive Mark
  | fragment (fragment : Fragment)
  | lineEnd

def lineMarks (depth : Nat) (text : String) : List Mark :=
  (if text.isEmpty then [] else [.fragment ⟨depth, text⟩]) ++ [.lineEnd]

mutual
/-- The marks of a step at a depth. A blank line may end the line begun before and one of its own. -/
inductive Step.Marks : Nat → Step → List Mark → Prop
  | write {depth : Nat} {text : String} :
      Step.Marks depth (.write text) [.fragment ⟨depth, text⟩]
  | line {depth : Nat} {text : String} : Step.Marks depth (.line text) (lineMarks depth text)
  | blankLine {depth ends : Nat} : ends ≤ 2 →
      Step.Marks depth .blankLine (List.replicate ends .lineEnd)
  | block {depth : Nat} {opener closer : String} {body : List Step} {marks : List Mark} :
      AllMarks (depth + 1) body marks →
      Step.Marks depth (.block opener closer body)
        (lineMarks depth opener ++ marks ++ lineMarks depth closer)
  | indented {depth : Nat} {body : List Step} {marks : List Mark} :
      AllMarks (depth + 1) body marks → Step.Marks depth (.indented body) marks

inductive AllMarks : Nat → List Step → List Mark → Prop
  | nil {depth : Nat} : AllMarks depth [] []
  | cons {depth : Nat} {first : Step} {rest : List Step} {marks more : List Mark} :
      first.Marks depth marks → AllMarks depth rest more →
      AllMarks depth (first :: rest) (marks ++ more)
end

/-! Lines as lists of fragments. -/

structure Draft where
  finished : List (List Fragment) := []
  pending : List Fragment := []

namespace Draft

def mark (draft : Draft) : Mark → Draft
  | .fragment fragment => { draft with pending := draft.pending ++ [fragment] }
  | .lineEnd => ⟨draft.finished ++ [draft.pending], []⟩

def markAll (draft : Draft) (marks : List Mark) : Draft :=
  marks.foldl mark draft

theorem markAll_append (draft : Draft) (first second : List Mark) :
    draft.markAll (first ++ second) = (draft.markAll first).markAll second :=
  List.foldl_append

end Draft

/-- The text of a line that has been begun: the margin of its first fragment, and all fragments. -/
def begun (indent : String) : List Fragment → Option String
  | [] => none
  | first :: rest =>
      some (marginOf indent first.depth ++ String.join (first.text :: rest.map Fragment.text))

def lineOf (indent : String) (fragments : List Fragment) : String :=
  ((begun indent fragments).getD "").trimBlanksRight

theorem begun_concat (indent : String) (fragments : List Fragment) (last : Fragment) :
    begun indent (fragments ++ [last]) =
      some ((begun indent fragments).getD (marginOf indent last.depth) ++ last.text) := by
  cases fragments with
  | nil => simp [begun, String.join]
  | cons first rest =>
      have joined : String.join (first.text :: (rest ++ [last]).map Fragment.text) =
          String.join (first.text :: rest.map Fragment.text) ++ last.text := by
        rw [← String.toList_inj]
        simp
      rw [List.cons_append, begun, joined, begun, Option.getD_some, String.append_assoc]

namespace Page

/-- A page as a draft is written out with an indent. -/
structure Shows (page : Page) (indent : String) (draft : Draft) : Prop where
  indented : page.indent = indent
  finished : page.finished.toList = draft.finished.map (lineOf indent)
  pending : page.pending = begun indent draft.pending

variable {page : Page} {indent : String} {draft : Draft}

theorem line_eq (text : String) (page : Page) :
    page.line text = (if text.isEmpty then page else page.write text).line "" := rfl

def ended (page : Page) : Page :=
  if page.pending.isSome then page.line "" else page

theorem pending_ended (page : Page) : page.ended.pending = none := by
  rw [ended]
  split
  · rfl
  · rename_i none
    exact Option.not_isSome_iff_eq_none.mp none

theorem line_of_pending_none (none : page.pending = none) :
    page.line "" = { page with finished := page.finished.push "" } := by
  have blank : "".trimBlanksRight = "" := rfl
  simp [Page.line, none, blank]

/-- A blank line ends the line begun, and one more unless the page is empty or ends in one. -/
theorem blankLine_eq (page : Page) :
    page.blankLine =
      if page.ended.finished.back?.all String.isEmpty then page.ended else page.ended.line "" := by
  rw [line_of_pending_none page.pending_ended]
  simp only [blankLine]
  rw [← ended]
  cases page.ended.finished.back? with
  | none => rfl
  | some last => rfl

namespace Shows

theorem atLevel (shows : page.Shows indent draft) (level : Nat) :
    { page with level := level }.Shows indent draft :=
  ⟨shows.indented, shows.finished, shows.pending⟩

theorem write (shows : page.Shows indent draft) (text : String) :
    (page.write text).Shows indent (draft.mark (.fragment ⟨page.level, text⟩)) := by
  refine ⟨shows.indented, shows.finished, ?_⟩
  have margin : page.margin = marginOf indent page.level := by rw [← shows.indented]; rfl
  rw [Page.write, Draft.mark, begun_concat, shows.pending, margin]

theorem lineEnd (shows : page.Shows indent draft) :
    (page.line "").Shows indent (draft.mark .lineEnd) := by
  refine ⟨shows.indented, ?_, rfl⟩
  have last : (page.line "").finished =
      page.finished.push (page.pending.getD "").trimBlanksRight := rfl
  rw [last, Array.toList_push, shows.finished, shows.pending, Draft.mark, List.map_append]
  rfl

theorem line (shows : page.Shows indent draft) (text : String) :
    (page.line text).Shows indent (draft.markAll (lineMarks page.level text)) := by
  rw [line_eq, lineMarks, Draft.markAll_append]
  split
  · exact shows.lineEnd
  · exact (shows.write text).lineEnd

theorem blankLine (shows : page.Shows indent draft) :
    ∃ ends ≤ 2, page.blankLine.Shows indent (draft.markAll (List.replicate ends .lineEnd)) := by
  have ended : ∃ ends ≤ 1,
      page.ended.Shows indent (draft.markAll (List.replicate ends .lineEnd)) := by
    rw [Page.ended]
    split
    · exact ⟨1, Nat.le_refl 1, shows.lineEnd⟩
    · exact ⟨0, Nat.zero_le 1, shows⟩
  obtain ⟨ends, few, after⟩ := ended
  rw [blankLine_eq]
  split
  · exact ⟨ends, by omega, after⟩
  · refine ⟨ends + 1, by omega, ?_⟩
    rw [List.replicate_succ', Draft.markAll_append]
    exact after.lineEnd

end Shows

mutual
/-- Whatever a step does to a page, its marks do to the draft. -/
theorem shows_step (first : Step) {page : Page} {draft : Draft} (shows : page.Shows indent draft) :
    ∃ marks, first.Marks page.level marks ∧
      (page.step first).Shows indent (draft.markAll marks) := by
  cases first with
  | write text => exact ⟨_, .write, by rw [step]; exact shows.write text⟩
  | line text => exact ⟨_, .line, by rw [step]; exact shows.line text⟩
  | blankLine =>
      obtain ⟨ends, few, after⟩ := shows.blankLine
      exact ⟨_, .blankLine few, by rw [step]; exact after⟩
  | block opener closer body =>
      have opened := (shows.line opener).atLevel (page.level + 1)
      obtain ⟨marks, made, inner⟩ := shows_steps body opened
      have closed := (inner.atLevel page.level).line closer
      refine ⟨_, .block made, ?_⟩
      rw [step, Draft.markAll_append, Draft.markAll_append]
      simpa using closed
  | indented body =>
      obtain ⟨marks, made, inner⟩ := shows_steps body (shows.atLevel (page.level + 1))
      refine ⟨_, .indented made, ?_⟩
      rw [step]
      exact inner.atLevel _

theorem shows_steps (list : List Step) {page : Page} {draft : Draft}
    (shows : page.Shows indent draft) :
    ∃ marks, AllMarks page.level list marks ∧
      (page.steps list).Shows indent (draft.markAll marks) := by
  cases list with
  | nil => exact ⟨[], .nil, by rw [steps]; exact shows⟩
  | cons first rest =>
      obtain ⟨marks, made, after⟩ := shows_step first shows
      obtain ⟨more, madeLater, final⟩ := shows_steps rest after
      rw [level_step] at madeLater
      exact ⟨_, .cons made madeLater, by rw [steps, Draft.markAll_append]; exact final⟩
end

end Page

/-! Characters that are no blanks. -/

def isInk (c : Char) : Bool :=
  !Text.isBlank c

theorem filter_isInk_trimRight (text : List Char) :
    (Text.trimRight text).filter isInk = text.filter isInk := by
  have blank : (text.reverse.takeWhile Text.isBlank).filter isInk = [] :=
    List.filter_eq_nil_iff.mpr fun c member => by simp [isInk, List.mem_takeWhile_imp member]
  have whole := List.takeWhile_append_dropWhile (p := Text.isBlank) (l := text.reverse)
  calc (Text.trimRight text).filter isInk
      = ((text.reverse.takeWhile Text.isBlank ++
          text.reverse.dropWhile Text.isBlank).filter isInk).reverse := by
        rw [Text.trimRight, List.filter_reverse, List.filter_append, blank, List.nil_append]
    _ = text.filter isInk := by rw [whole, List.filter_reverse, List.reverse_reverse]

mutual
def Step.given : Step → List Char
  | .write text => text.toList
  | .line text => text.toList
  | .blankLine => []
  | .block opener closer body => opener.toList ++ givenAll body ++ closer.toList
  | .indented body => givenAll body

def givenAll : List Step → List Char
  | [] => []
  | first :: rest => first.given ++ givenAll rest
end

namespace Page

/-- The characters on a page that are no blanks. -/
def ink (page : Page) : List Char :=
  (page.finished.toList.flatMap String.toList ++ (page.pending.getD "").toList).filter isInk

theorem ink_write (text : String) (page : Page) :
    (page.ink ++ text.toList.filter isInk).Sublist (page.write text).ink := by
  cases begun : page.pending with
  | some pending => simp [ink, write, begun]
  | none => simp [ink, write, begun]

theorem ink_lineEnd (page : Page) : (page.line "").ink = page.ink := by
  have last : (page.line "").finished =
      page.finished.push (page.pending.getD "").trimBlanksRight := rfl
  rw [ink, ink, last, pending_line, Array.toList_push, List.flatMap_append]
  simp [String.trimBlanksRight, filter_isInk_trimRight]

theorem ink_line (text : String) (page : Page) :
    (page.ink ++ text.toList.filter isInk).Sublist (page.line text).ink := by
  rw [line_eq, ink_lineEnd]
  split
  · rename_i none
    simp [String.isEmpty_iff.mp none]
  · exact page.ink_write text

theorem ink_blankLine (page : Page) : page.blankLine.ink = page.ink := by
  have ended : page.ended.ink = page.ink := by
    rw [Page.ended]
    split
    · exact ink_lineEnd page
    · rfl
  rw [blankLine_eq]
  split
  · exact ended
  · rw [ink_lineEnd, ended]

mutual
theorem ink_step (first : Step) (page : Page) :
    (page.ink ++ first.given.filter isInk).Sublist (page.step first).ink := by
  cases first with
  | write text => rw [step, Step.given]; exact page.ink_write text
  | line text => rw [step, Step.given]; exact page.ink_line text
  | blankLine => rw [step, Step.given, ink_blankLine]; simp
  | block opener closer body =>
      have opened := page.ink_line opener
      have inner := ink_steps body { page.line opener with level := (page.line opener).level + 1 }
      -- the closer is written one level further out, which changes no ink
      have closed (page : Page) := ink_line closer { page with level := page.level - 1 }
      rw [step, Step.given, List.filter_append, List.filter_append, ← List.append_assoc,
        ← List.append_assoc]
      exact (((opened.append_right _).trans inner).append_right _).trans (closed _)
  | indented body =>
      rw [step, Step.given]
      exact ink_steps body { page with level := page.level + 1 }

theorem ink_steps (list : List Step) (page : Page) :
    (page.ink ++ (givenAll list).filter isInk).Sublist (page.steps list).ink := by
  cases list with
  | nil => simp [steps, givenAll]
  | cons first rest =>
      have here := (ink_step first page).append_right ((givenAll rest).filter isInk)
      rw [steps, givenAll, List.filter_append, ← List.append_assoc]
      exact here.trans (ink_steps rest (page.step first))
end

theorem flatMap_sublist_intercalate (lines : List String) :
    (lines.flatMap String.toList).Sublist (String.intercalate "\n" lines).toList := by
  induction lines with
  | nil => exact List.nil_sublist _
  | cons line lines ih =>
      cases lines with
      | nil => simp
      | cons next others =>
          rw [String.intercalate_cons_cons, String.toList_append, String.toList_append,
            List.flatMap_cons, List.append_assoc]
          exact (List.Sublist.refl _).append (ih.trans (List.sublist_append_right _ _))

theorem ink_sublist_text (page : Page) : page.ink.Sublist page.text.toList := by
  have shown : page.ink = (page.lines.flatMap String.toList).filter isInk := by
    rw [ink, lines, List.flatMap_append, List.filter_append, List.filter_append]
    cases page.pending with
    | none => simp
    | some pending => simp [String.trimBlanksRight, filter_isInk_trimRight]
  rw [shown]
  exact List.filter_sublist.trans (flatMap_sublist_intercalate page.lines)

/-! Blank lines. -/

/-- Ending the line begun adds no empty line, if that line is not blank. -/
theorem getElem?_ended_ne {page : Page} (solid : ∀ text ∈ page.pending, text.trimBlanksRight ≠ "")
    {i : Nat} (added : page.finished.size ≤ i) : page.ended.finished[i]? ≠ some "" := by
  rw [ended]
  split
  · rename_i begun
    obtain ⟨text, pending⟩ := Option.isSome_iff_exists.mp begun
    have last : (page.line "").finished = page.finished.push text.trimBlanksRight := by
      simp [Page.line, pending]
    rw [last, Array.getElem?_push]
    split
    · exact fun same => solid text pending (Option.some.inj same)
    · simp [Array.getElem?_eq_none added]
  · simp [Array.getElem?_eq_none added]

/-- Every empty line that a blank line adds stands behind one that is not empty. -/
theorem blankLine_spaced {page : Page} (solid : ∀ text ∈ page.pending, text.trimBlanksRight ≠ "")
    {i : Nat} (added : page.finished.size ≤ i) (empty : page.blankLine.finished[i]? = some "") :
    ∃ before line, i = before + 1 ∧ page.blankLine.finished[before]? = some line ∧ line ≠ "" := by
  rw [blankLine_eq] at empty ⊢
  split at empty
  · exact absurd empty (getElem?_ended_ne solid added)
  · rename_i last
    obtain ⟨line, found, dark⟩ : ∃ line, page.ended.finished.back? = some line ∧ line ≠ "" := by
      cases found : page.ended.finished.back? with
      | none => simp [found] at last
      | some line => exact ⟨line, rfl, by simpa [found] using last⟩
    have pushed : (page.ended.line "").finished = page.ended.finished.push "" := by
      rw [line_of_pending_none page.pending_ended]
    rw [if_neg last, pushed]
    rw [pushed, Array.getElem?_push] at empty
    split at empty
    · rename_i final
      rw [Array.back?_eq_getElem?] at found
      have within : page.ended.finished.size - 1 < page.ended.finished.size := by
        by_contra outside
        rw [Array.getElem?_eq_none (Nat.le_of_not_lt outside)] at found
        cases found
      refine ⟨page.ended.finished.size - 1, line, by omega, ?_, dark⟩
      rw [Array.getElem?_push, if_neg (by omega), found]
    · exact absurd empty (getElem?_ended_ne solid added)

end Page

/--
What steps write on an empty page. The level is the one at the start; a line is the margin at the
depth of its first piece with all its pieces behind it, trimmed; no character but blanks is lost; and
a blank line makes no empty line at the start of the page or behind another one.
-/
theorem steps_follow_nesting (indent : String) (list : List Step) :
    ((Page.empty indent).steps list).level = (Page.empty indent).level ∧
      (∃ marks, AllMarks 0 list marks ∧
        ((Page.empty indent).steps list).Shows indent (Draft.markAll {} marks)) ∧
      ((givenAll list).filter isInk).Sublist ((Page.empty indent).steps list).text.toList ∧
      ∀ page : Page, (∀ text ∈ page.pending, text.trimBlanksRight ≠ "") →
        ∀ i, page.finished.size ≤ i → page.blankLine.finished[i]? = some "" →
          ∃ before line, i = before + 1 ∧ page.blankLine.finished[before]? = some line ∧
            line ≠ "" := by
  refine ⟨Page.level_steps list _, ?_, ?_, fun page solid i => Page.blankLine_spaced solid⟩
  · have blank : (Page.empty indent).Shows indent {} := ⟨rfl, rfl, rfl⟩
    exact Page.shows_steps list blank
  · have written := Page.ink_steps list (Page.empty indent)
    exact ((List.sublist_append_right _ _).trans written).trans (Page.ink_sublist_text _)

theorem steps_follow_nesting_begun :
    let page : Page := ⟨"  ", 1, #["a"], some "  b"⟩
    (∀ text ∈ page.pending, text.trimBlanksRight ≠ "") ∧ page.finished.size ≤ 2 ∧
      page.blankLine.finished[2]? = some "" ∧
      ∃ before line, 2 = before + 1 ∧ page.blankLine.finished[before]? = some line ∧ line ≠ "" := by
  have solid : ∀ text ∈ some "  b", text.trimBlanksRight ≠ "" := by
    simp only [Option.mem_def, Option.some.injEq, forall_eq']
    decide
  exact ⟨solid, by decide, by decide, (steps_follow_nesting "  " []).2.2.2
    ⟨"  ", 1, #["a"], some "  b"⟩ solid 2 (by decide) (by decide)⟩

example : layout [.block "a \x7b" "\x7d" [.write "b", .blankLine, .blankLine, .line "c"]] =
    "a \x7b\n  b\n\n  c\n\x7d" := by
  decide

end ApiCompiler.Script
