import Mathlib.Data.List.TakeDrop
import Mathlib.Data.List.TakeWhile
import ApiCompiler.Derivation.Actions
import ApiCompiler.Proofs.Script.ReadBack
import ApiCompiler.Proofs.Text.Segments

/-!
Paths with names in braces: what they are with the names replaced by texts, and the template that
interpolates them.
-/

namespace ApiCompiler.Derivation

open Script

/-- A name in braces at the start of a path, and what follows it. -/
def placeholder? : List Char → Option (List Char × List Char)
  | '\x7b' :: rest =>
      match rest.span (· ≠ '\x7d') with
      | (c :: name, _ :: after) => some (c :: name, after)
      | _ => none
  | _ => none

theorem placeholder?_eq_some {path name after : List Char} :
    placeholder? path = some (name, after) ↔
      path = '\x7b' :: name ++ '\x7d' :: after ∧ name ≠ [] ∧ '\x7d' ∉ name := by
  constructor
  · intro found
    simp only [placeholder?] at found
    split at found
    · rename_i rest
      split at found
      · rename_i c name' closing after' cut
        cases found
        obtain ⟨-, unclosed, joined⟩ := Text.span_eq_cons_iff.mp cut
        exact ⟨by rw [joined]; rfl, by simp, unclosed⟩
      · cases found
    · cases found
  · rintro ⟨rfl, nonempty, unclosed⟩
    obtain ⟨c, name, rfl⟩ := List.exists_cons_of_ne_nil nonempty
    simp only [placeholder?, List.cons_append]
    rw [← List.cons_append, Text.span_eq_cons_iff.mpr ⟨rfl, unclosed, rfl⟩]

theorem length_placeholder? {path name after : List Char}
    (found : placeholder? path = some (name, after)) : after.length < path.length := by
  obtain ⟨rfl, -⟩ := placeholder?_eq_some.mp found
  simp only [List.cons_append, List.length_cons, List.length_append]
  omega

/-- The parts of a path, with the names in braces as holes. -/
def pathPieces (path : List Char) : List Piece :=
  match path with
  | [] => []
  | c :: rest =>
      match _found : placeholder? (c :: rest) with
      | some (name, after) => .hole (String.ofList name) :: pathPieces after
      | none => .character c :: pathPieces rest
termination_by path.length
decreasing_by
  · exact length_placeholder? _found
  · simp

@[simp] theorem pathPieces_nil : pathPieces [] = [] := by
  rw [pathPieces]

theorem pathPieces_placeholder {path name after : List Char}
    (found : placeholder? path = some (name, after)) :
    pathPieces path = .hole (String.ofList name) :: pathPieces after := by
  cases path with
  | nil => cases found
  | cons c rest =>
      rw [pathPieces]
      split
      · rename_i same
        cases found.symm.trans same
        rfl
      · rename_i other
        cases found.symm.trans other

theorem pathPieces_other {c : Char} {rest : List Char} (other : placeholder? (c :: rest) = none) :
    pathPieces (c :: rest) = .character c :: pathPieces rest := by
  rw [pathPieces]
  split
  · rename_i found
    cases other.symm.trans found
  · rfl

/-- The names that stand in braces. -/
def placeholders (path : String) : List String :=
  (pathPieces path.toList).filterMap fun
    | .character _ => none
    | .hole name => some name

def filled (value : String → String) : Piece → List Char
  | .character c => [c]
  | .hole name => (value name).toList

/-- The path with each name in braces replaced by its value. -/
def fillPath (value : String → String) (path : String) : String :=
  String.ofList ((pathPieces path.toList).flatMap (filled value))

theorem mem_placeholders {path name : String} :
    name ∈ placeholders path ↔ .hole name ∈ pathPieces path.toList := by
  simp only [placeholders, List.mem_filterMap]
  constructor
  · rintro ⟨piece, member, same⟩
    cases piece with
    | character c => cases same
    | hole other =>
        cases same
        exact member
  · exact fun member => ⟨.hole name, member, rfl⟩

/-! The template. -/

def interpolated (keyOf : String → String) : Piece → List Char
  | .character c => [c]
  | .hole name => '$' :: '\x7b' :: (keyOf name).toList ++ ['\x7d']

def renamed (keyOf : String → String) : Piece → Piece
  | .character c => .character c
  | .hole name => .hole (keyOf name)

theorem interpolateFrom_skip (keyOf : String → String) (path : List Char) (skip : Nat) :
    interpolateFrom keyOf path skip = interpolateFrom keyOf (path.drop skip) 0 := by
  induction path generalizing skip with
  | nil => simp [interpolateFrom]
  | cons c rest ih =>
      cases skip with
      | zero => rfl
      | succ skip => exact ih skip

theorem interpolateFrom_placeholder (keyOf : String → String) {path name after : List Char}
    (found : placeholder? path = some (name, after)) :
    interpolateFrom keyOf path 0 =
      '$' :: '\x7b' :: (keyOf (String.ofList name)).toList ++
        '\x7d' :: interpolateFrom keyOf after 0 := by
  obtain ⟨rfl, nonempty, unclosed⟩ := placeholder?_eq_some.mp found
  obtain ⟨c, name, rfl⟩ := List.exists_cons_of_ne_nil nonempty
  rw [List.cons_append, interpolateFrom, if_pos rfl,
    Text.span_eq_cons_iff.mpr ⟨rfl, unclosed, rfl⟩]
  simp only
  rw [interpolateFrom_skip]
  simp

theorem interpolateFrom_other (keyOf : String → String) {c : Char} {rest : List Char}
    (other : placeholder? (c :: rest) = none) :
    interpolateFrom keyOf (c :: rest) 0 = c :: interpolateFrom keyOf rest 0 := by
  simp only [interpolateFrom]
  split
  · rename_i brace
    subst brace
    simp only [placeholder?] at other
    split <;> simp_all
  · rfl

theorem interpolateFrom_eq_flatMap (keyOf : String → String) (path : List Char) :
    interpolateFrom keyOf path 0 = (pathPieces path).flatMap (interpolated keyOf) := by
  fun_induction pathPieces path with
  | case1 => rfl
  | case2 c rest name after found ih =>
      rw [interpolateFrom_placeholder keyOf found, ih]
      simp [interpolated]
  | case3 c rest other ih =>
      rw [interpolateFrom_other keyOf other, ih]
      rfl

theorem templateChar_of_isNamePart {c : Char} (part : isNamePart c = true) :
    templateChar c = [c] := by
  rw [templateChar, if_neg, if_neg]
  · rintro rfl
    exact absurd part (by decide)
  · rintro rfl
    exact absurd part (by decide)

theorem flatMap_templateChar_identifier {name : List Char}
    (identifier : Naming.isIdentifier name = true) : name.flatMap templateChar = name := by
  have each := Naming.isAlphanum_of_isIdentifier identifier
  clear identifier
  induction name with
  | nil => rfl
  | cons c name ih =>
      rw [List.flatMap_cons,
        templateChar_of_isNamePart (isNamePart_of_isAlphanum (each c (by simp))),
        ih fun d member => each d (by simp [member])]
      rfl

theorem flatMap_templateChar_hole {key : String}
    (identifier : Naming.isIdentifier key.toList = true) :
    ('$' :: '\x7b' :: key.toList ++ ['\x7d']).flatMap templateChar =
      '$' :: '\x7b' :: key.toList ++ ['\x7d'] := by
  simp only [List.cons_append, List.flatMap_cons, List.flatMap_append,
    flatMap_templateChar_identifier identifier]
  rfl

theorem head?_template (keyOf : String → String) {path : List Char} (rest : List Char)
    (unbraced : path.head? ≠ some '\x7b') :
    (((pathPieces path).flatMap (interpolated keyOf)).flatMap templateChar ++
      '\x60' :: rest).head? ≠ some '\x7b' := by
  cases path with
  | nil => simp
  | cons c path =>
      have other : placeholder? (c :: path) = none := by
        cases found : placeholder? (c :: path) with
        | none => rfl
        | some cut =>
            obtain ⟨same, -⟩ := placeholder?_eq_some.mp found
            simp [(List.cons.inj same).1] at unbraced
      rw [pathPieces_other other]
      simp only [List.flatMap_cons, interpolated, List.singleton_append, templateChar]
      split_ifs <;> simp_all

theorem readPieces?_template (keyOf : String → String) {path : List Char} (rest : List Char)
    (uninterpolated : ¬ ['$', '\x7b'] <:+: path) (noReturn : '\r' ∉ path)
    (identifiers : ∀ name, .hole name ∈ pathPieces path →
      Naming.isIdentifier (keyOf name).toList = true) :
    readPieces? none (((pathPieces path).flatMap (interpolated keyOf)).flatMap templateChar ++
        '\x60' :: rest) =
      some ((pathPieces path).map (renamed keyOf), rest) := by
  fun_induction pathPieces path with
  | case1 => rw [List.flatMap_nil, List.flatMap_nil, List.nil_append, readPieces?]; rfl
  | case2 c path name after found ih =>
      obtain ⟨same, -⟩ := placeholder?_eq_some.mp found
      have tail : after <:+ c :: path := by
        rw [same]
        exact List.suffix_append_of_suffix (List.suffix_cons _ _)
      have read := ih (fun inside => uninterpolated (inside.trans tail.isInfix))
        (fun inside => noReturn (tail.mem inside))
        (fun name member => identifiers name (by simp [member]))
      have identifier := identifiers (String.ofList name) (by simp)
      rw [List.flatMap_cons, List.flatMap_append, interpolated,
        flatMap_templateChar_hole identifier]
      simp only [List.append_assoc, List.cons_append, List.nil_append]
      rw [← List.cons_append, ← List.cons_append, readPieces?_hole identifier, read]
      simp [renamed]
  | case3 c path other ih =>
      have tail : path <:+ c :: path := List.suffix_cons _ _
      have read := ih (fun inside => uninterpolated (inside.trans tail.isInfix))
        (fun inside => noReturn (tail.mem inside))
        (fun name member => identifiers name (by simp [member]))
      -- A dollar that is not before a brace opens no hole.
      have unbraced : c = '$' → path.head? ≠ some '\x7b' := by
        rintro rfl braced
        obtain ⟨path, rfl⟩ := List.head?_eq_some_iff.mp braced
        exact uninterpolated ⟨[], path, rfl⟩
      have returnFree : c ≠ '\r' := fun same => noReturn (by simp [same])
      rw [List.flatMap_cons, List.flatMap_append, interpolated, List.flatMap_singleton,
        List.append_assoc, readPieces?_character returnFree, read]
      · rfl
      · exact fun dollar => head?_template keyOf rest (unbraced dollar)

end ApiCompiler.Derivation
