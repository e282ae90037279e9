import ApiCompiler.Text.Blank

/-!
Laying out source text: steps that write, end lines and nest, and the page they are written on. A
line gets the indentation of the level at which its first piece is written.
-/

namespace ApiCompiler.Script

inductive Step
  | write (text : String)
  | line (text : String)
  | blankLine
  | block (opener closer : String) (body : List Step)
  | indented (body : List Step)

def Step.member (name value : String) : Step :=
  .line (name ++ ": " ++ value ++ ",")

/-- A member that is left out when it has no value. -/
def Step.member? (name : String) (value : Option String) : List Step :=
  value.toList.map (Step.member name)

/-- The lines finished so far and the line being written, if one has been begun. -/
structure Page where
  indent : String
  level : Nat
  finished : Array String
  pending : Option String

namespace Page

def empty (indent : String) : Page :=
  ⟨indent, 0, #[], none⟩

def margin (page : Page) : String :=
  String.join (List.replicate page.level page.indent)

def write (text : String) (page : Page) : Page :=
  { page with pending := some (page.pending.getD page.margin ++ text) }

@[simp] theorem level_write (text : String) (page : Page) :
    (page.write text).level = page.level := rfl

/-- Ends the pending line after one more piece; blanks at its end are dropped. -/
def line (text : String) (page : Page) : Page :=
  let page := if text.isEmpty then page else page.write text
  { page with
    finished := page.finished.push (page.pending.getD "").trimBlanksRight
    pending := none }

@[simp] theorem level_line (text : String) (page : Page) :
    (page.line text).level = page.level := by
  simp only [line]
  split <;> rfl

@[simp] theorem pending_line (text : String) (page : Page) : (page.line text).pending = none := rfl

/-- Ends the pending line and adds an empty one unless the page ends in one or has none. -/
def blankLine (page : Page) : Page :=
  let page := if page.pending.isSome then page.line "" else page
  match page.finished.back? with
  | none => page
  | some last => if last.isEmpty then page else { page with finished := page.finished.push "" }

@[simp] theorem level_blankLine (page : Page) : page.blankLine.level = page.level := by
  have ended : (if page.pending.isSome then page.line "" else page).level = page.level := by
    split
    · exact level_line "" page
    · rfl
  simp only [blankLine]
  split
  · exact ended
  · split
    · exact ended
    · exact ended

mutual
def step : Step → Page → Page
  | .write text, page => page.write text
  | .line text, page => page.line text
  | .blankLine, page => page.blankLine
  | .block opener closer body, page =>
      let page := page.line opener
      let inner := steps body { page with level := page.level + 1 }
      { inner with level := inner.level - 1 }.line closer
  | .indented body, page =>
      let inner := steps body { page with level := page.level + 1 }
      { inner with level := inner.level - 1 }

def steps : List Step → Page → Page
  | [], page => page
  | first :: rest, page => steps rest (step first page)
end

mutual
@[simp] theorem level_step (first : Step) (page : Page) : (page.step first).level = page.level := by
  cases first with
  | write text => simp [step]
  | line text => simp [step]
  | blankLine => simp [step]
  | block opener closer body => simp [step, level_steps body]
  | indented body => simp [step, level_steps body]

@[simp] theorem level_steps (list : List Step) (page : Page) :
    (page.steps list).level = page.level := by
  cases list with
  | nil => simp [steps]
  | cons first rest => simp [steps, level_steps rest, level_step first]
end

/-- The lines, with the pending one at the end. -/
def lines (page : Page) : List String :=
  page.finished.toList ++ page.pending.toList.map String.trimBlanksRight

def text (page : Page) : String :=
  String.intercalate "\n" page.lines

end Page

def standardIndent : String := "  "

/-- The text that steps write on an empty page. -/
def layout (steps : List Step) : String :=
  ((Page.empty standardIndent).steps steps).text

end ApiCompiler.Script
