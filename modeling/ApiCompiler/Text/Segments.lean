/-!
Cutting texts at a separator and replacing parts of them. All functions work from left to right
and never look again at text they have produced.
-/

namespace ApiCompiler.Text

/-- The parts between separators, always one more than there are separators. -/
def splitAt (separator : Char) : List Char → List (List Char)
  | [] => [[]]
  | c :: rest =>
      if c = separator then [] :: splitAt separator rest
      else
        match splitAt separator rest with
        | [] => [[c]]
        | part :: parts => (c :: part) :: parts

theorem splitAt_ne_nil (separator : Char) (text : List Char) : splitAt separator text ≠ [] := by
  cases text with
  | nil => simp [splitAt]
  | cons c rest =>
      simp only [splitAt]
      split
      · simp
      · split <;> simp

theorem splitAt_of_not_mem {separator : Char} {text : List Char} (absent : separator ∉ text) :
    splitAt separator text = [text] := by
  induction text with
  | nil => rfl
  | cons c rest ih =>
      rw [List.mem_cons, not_or] at absent
      rw [splitAt, if_neg (Ne.symm absent.1), ih absent.2]

theorem splitAt_append {separator : Char} {part : List Char} (absent : separator ∉ part)
    (rest : List Char) :
    splitAt separator (part ++ separator :: rest) = part :: splitAt separator rest := by
  induction part with
  | nil => rw [List.nil_append, splitAt, if_pos rfl]
  | cons c part ih =>
      rw [List.mem_cons, not_or] at absent
      rw [List.cons_append, splitAt, if_neg (Ne.symm absent.1), ih absent.2]

/-- The text before the first separator, and the text after it if there is one. -/
def cut (separator : Char) (text : List Char) : List Char × Option (List Char) :=
  match text.span (· ≠ separator) with
  | (before, _ :: after) => (before, some after)
  | (before, []) => (before, none)

/-- What follows `start` in a text that begins with it. -/
def after? : (start text : List Char) → Option (List Char)
  | [], text => some text
  | _ :: _, [] => none
  | s :: start, c :: text => if s = c then after? start text else none

theorem after?_eq_some_iff {start text rest : List Char} :
    after? start text = some rest ↔ text = start ++ rest := by
  induction start generalizing text with
  | nil => simp [after?]
  | cons s start ih =>
      cases text with
      | nil => simp [after?]
      | cons c text =>
          simp only [after?, List.cons_append, List.cons.injEq]
          split
          · rename_i same
            simp [ih, same]
          · rename_i different
            simp [Ne.symm different]

def occurs (pattern : List Char) : List Char → Bool
  | [] => pattern.isEmpty
  | c :: rest => pattern.isPrefixOf (c :: rest) || occurs pattern rest

def replaceFrom (pattern replacement : List Char) : List Char → Nat → List Char
  | [], _ => []
  | _ :: rest, skip + 1 => replaceFrom pattern replacement rest skip
  | c :: rest, 0 =>
      match after? pattern (c :: rest) with
      | some _ => replacement ++ replaceFrom pattern replacement rest (pattern.length - 1)
      | none => c :: replaceFrom pattern replacement rest 0

/-- Every occurrence of a non-empty pattern replaced, the leftmost of two that overlap. -/
def replace (pattern replacement text : List Char) : List Char :=
  if pattern.isEmpty then text else replaceFrom pattern replacement text 0

def joinWith (separator : List Char) : List (List Char) → List Char
  | [] => []
  | [part] => part
  | part :: next :: parts => part ++ separator ++ joinWith separator (next :: parts)

theorem joinWith_cons (separator part : List Char) {parts : List (List Char)} (more : parts ≠ []) :
    joinWith separator (part :: parts) = part ++ separator ++ joinWith separator parts := by
  cases parts with
  | nil => exact absurd rfl more
  | cons next parts => rfl

end ApiCompiler.Text
