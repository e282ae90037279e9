import Mathlib.Data.List.Infix
import Mathlib.Data.List.TakeWhile
import ApiCompiler.Proofs.Text.Template
import ApiCompiler.Settings.Variables

/-!
References to variables in a text. References cannot overlap, so a text is a template in one way only:
all references in it, and between them texts that hold none.
-/

namespace ApiCompiler.Variables

open Text (Template)

/-- A letter or an underscore, and after it letters, digits and underscores. -/
def IsName (name : List Char) : Prop :=
  ∃ first rest, name = first :: rest ∧ isNameStart first = true ∧ ∀ c ∈ rest, isNameChar c = true

def reference (name : String) : List Char :=
  '$' :: '\x7b' :: name.toList ++ ['\x7d']

/-- A text with a reference to a variable somewhere in it. -/
def Refers (text : List Char) (name : String) : Prop :=
  IsName name.toList ∧ reference name <:+: text

theorem IsName.all {name : List Char} (valid : IsName name) :
    ∀ c ∈ name, isNameChar c = true := by
  obtain ⟨first, rest, rfl, starts, onward⟩ := valid
  refine List.forall_mem_cons.mpr ⟨?_, onward⟩
  simp only [isNameStart, Bool.or_eq_true] at starts
  rcases starts with letter | underscore
  · simp [isNameChar, Char.isAlphanum, letter]
  · simp [isNameChar, underscore]

theorem IsName.not_mem {name : List Char} (valid : IsName name) {c : Char}
    (other : isNameChar c = false) : c ∉ name := fun inside =>
  absurd (valid.all c inside) (Bool.eq_false_iff.mp other)

theorem name?_eq_some {text name : List Char} :
    name? text = some name ↔ IsName name ∧ ∃ rest, text = name ++ '\x7d' :: rest := by
  constructor
  · intro found
    have parts := List.take_append_drop (text.takeWhile isNameChar).length text
    rw [← List.prefix_iff_eq_take.mp (List.takeWhile_prefix isNameChar)] at parts
    simp only [name?] at found
    split at found
    · rename_i first more after begun rest
      split at found
      · rename_i starts
        cases found
        refine ⟨⟨first, more, begun, starts, fun c member => ?_⟩, after, ?_⟩
        · exact List.mem_takeWhile_imp (begun ▸ List.mem_cons_of_mem first member)
        · rw [← rest, parts]
      · cases found
    · cases found
  · rintro ⟨valid, rest, rfl⟩
    have whole : (name ++ '\x7d' :: rest).takeWhile isNameChar = name := by
      rw [List.takeWhile_append_of_pos valid.all]
      simp [show isNameChar '\x7d' = false from rfl]
    obtain ⟨first, more, rfl, starts, -⟩ := valid
    simp only [name?, whole, List.drop_left]
    simp [starts]

/-! Pieces. -/

theorem piecesFrom_eq_drop (skip : Nat) (text : List Char) :
    piecesFrom skip text = pieces (text.drop skip) := by
  induction text generalizing skip with
  | nil => simp [pieces, piecesFrom]
  | cons c rest ih =>
      cases skip with
      | zero => rfl
      | succ skip => rw [piecesFrom, ih, List.drop_succ_cons]

theorem pieces_reference {name : String} (valid : IsName name.toList) (rest : List Char) :
    pieces (reference name ++ rest) = .reference name :: pieces rest := by
  have found : name? (name.toList ++ '\x7d' :: rest) = some name.toList :=
    name?_eq_some.mpr ⟨valid, rest, rfl⟩
  have letters : reference name ++ rest = '$' :: '\x7b' :: (name.toList ++ '\x7d' :: rest) := by
    simp [reference]
  rw [letters, pieces, piecesFrom, found]
  simp [piecesFrom_eq_drop]

theorem pieces_cons {c : Char} (rest : List Char)
    (other : ∀ name, IsName name.toList → ¬ reference name <+: c :: rest) :
    pieces (c :: rest) = .plain c :: pieces rest := by
  unfold pieces
  by_cases opens : c = '$' ∧ ∃ behind, rest = '\x7b' :: behind
  · obtain ⟨rfl, behind, rfl⟩ := opens
    rw [piecesFrom]
    split
    · rename_i name found
      obtain ⟨valid, after, rfl⟩ := name?_eq_some.mp found
      refine absurd ⟨after, ?_⟩ (other (String.ofList name) (by simpa using valid))
      simp [reference]
    · rfl
  · rw [piecesFrom]
    intro behind dollar brace
    exact opens ⟨dollar, behind, brace⟩

/-! References next to each other. -/

-- No character of a reference but its first is a dollar sign, so the next one cannot begin within it.
theorem reference_within {name : String} (valid : IsName name.toList) {text rest : List Char}
    (nonempty : text ≠ []) (stops : ∀ c ∈ rest.head?, c = '$')
    (starts : reference name <+: text ++ rest) : reference name <+: text := by
  rcases List.prefix_or_prefix_of_prefix starts (List.prefix_append text rest) with inside | longer
  · exact inside
  · obtain ⟨more, joined⟩ := longer
    rw [← joined, List.prefix_append_right_inj] at starts
    cases more with
    | nil => exact ⟨[], by rw [← joined, List.append_nil, List.append_nil]⟩
    | cons c more =>
        obtain ⟨d, text, rfl⟩ := List.exists_cons_of_ne_nil nonempty
        have first : c ∈ rest.head? := by
          obtain ⟨behind, rfl⟩ := starts
          rfl
        cases stops c first
        have behind : text ++ '$' :: more = '\x7b' :: name.toList ++ ['\x7d'] :=
          (List.cons.inj joined).2
        have inside : '$' ∈ text ++ '$' :: more := by simp
        have absent : '$' ∉ name.toList := valid.not_mem rfl
        rw [behind] at inside
        simp [absent] at inside

theorem pieces_append {plain : List Char} (bare : ∀ name, ¬ Refers plain name)
    (rest : List Char) (stops : ∀ c ∈ rest.head?, c = '$') :
    pieces (plain ++ rest) = plain.map .plain ++ pieces rest := by
  induction plain with
  | nil => rfl
  | cons c plain ih =>
      have later : ∀ name, ¬ Refers plain name := fun name ⟨valid, inside⟩ =>
        bare name ⟨valid, inside.trans (List.suffix_cons c plain).isInfix⟩
      have other : ∀ name, IsName name.toList → ¬ reference name <+: c :: (plain ++ rest) :=
        fun name valid starts => bare name ⟨valid,
          (reference_within valid (List.cons_ne_nil c plain) stops starts).isInfix⟩
      rw [List.cons_append, pieces_cons _ other, ih later]
      rfl

theorem reference_mem_pieces {name : String} (valid : IsName name.toList)
    (front back : List Char) : .reference name ∈ pieces (front ++ (reference name ++ back)) := by
  cases front with
  | nil => simp [pieces_reference valid]
  | cons c front =>
      by_cases met : ∃ other : String, IsName other.toList ∧
          reference other <+: c :: front ++ (reference name ++ back)
      · obtain ⟨other, otherValid, starts⟩ := met
        obtain ⟨more, joined⟩ := reference_within otherValid (List.cons_ne_nil c front)
          (by simp [reference]) starts
        have shorter : more.length < front.length + 1 := by
          rw [← List.length_cons (a := c), ← joined]
          simp only [reference, List.length_append, List.length_cons]
          omega
        rw [← joined, List.append_assoc, pieces_reference otherValid]
        exact List.mem_cons_of_mem _ (reference_mem_pieces valid more back)
      · have plain := pieces_cons (c := c) (front ++ (reference name ++ back))
          fun other otherValid starts => met ⟨other, otherValid, starts⟩
        rw [List.cons_append, plain]
        exact List.mem_cons_of_mem _ (reference_mem_pieces valid front back)
termination_by front.length

/-! Texts cut at their references. -/

/-- A template whose names are variables, with texts between them in which no reference stands. -/
structure IsCut (template : Template) : Prop where
  names : ∀ name ∈ template.names, IsName name.toList
  plains : ∀ plain ∈ template.plains, ∀ name, ¬ Refers plain name

def piecesOf (template : Template) : List Piece :=
  template.leading.flatMap (fun (plain, name) => plain.map .plain ++ [.reference name]) ++
    template.last.map .plain

theorem piecesOf_cons (plain last : List Char) (name : String)
    (leading : List (List Char × String)) :
    piecesOf ⟨(plain, name) :: leading, last⟩ =
      plain.map .plain ++ (.reference name :: piecesOf ⟨leading, last⟩) := by
  simp [piecesOf]

theorem reference_mem_piecesOf {template : Template} {name : String}
    (member : .reference name ∈ piecesOf template) : name ∈ template.names := by
  obtain ⟨leading, last⟩ := template
  induction leading with
  | nil => simp [piecesOf] at member
  | cons part leading ih =>
      obtain ⟨plain, other⟩ := part
      simp only [piecesOf_cons, List.mem_append, List.mem_map, List.mem_cons, reduceCtorEq, and_false,
        exists_false, false_or, Piece.reference.injEq] at member
      rcases member with rfl | later
      · exact List.mem_cons_self
      · exact List.mem_cons_of_mem _ (ih later)

theorem pieces_fill {template : Template} (cut : IsCut template) :
    pieces (template.fill reference) = piecesOf template := by
  obtain ⟨leading, last⟩ := template
  induction leading with
  | nil =>
      have whole := pieces_append (cut.plains last (by simp)) [] (by simp)
      simpa [piecesOf, pieces, piecesFrom] using whole
  | cons part leading ih =>
      obtain ⟨plain, name⟩ := part
      obtain ⟨bare, plains⟩ := List.forall_mem_cons.mp cut.plains
      obtain ⟨valid, names⟩ := List.forall_mem_cons.mp cut.names
      rw [Template.fill_cons, pieces_append bare _ (by simp [reference]), pieces_reference valid,
        ih ⟨names, plains⟩, piecesOf_cons]

theorem refers_fill_iff {template : Template} (cut : IsCut template) {name : String} :
    Refers (template.fill reference) name ↔ name ∈ template.names := by
  constructor
  · rintro ⟨valid, front, back, joined⟩
    have met := reference_mem_pieces valid front back
    rw [← List.append_assoc, joined, pieces_fill cut] at met
    exact reference_mem_piecesOf met
  · intro member
    refine ⟨cut.names name member, ?_⟩
    obtain ⟨leading, last⟩ := template
    obtain ⟨part, inside, rfl⟩ := List.mem_map.mp member
    have written : reference part.2 <:+: part.1 ++ reference part.2 :=
      (List.suffix_append _ _).isInfix
    refine (written.trans ?_).trans (List.prefix_append _ _).isInfix
    exact List.infix_of_mem_flatten (List.mem_map_of_mem inside)

theorem not_refers_cons {c : Char} {plain : List Char} (bare : ∀ name, ¬ Refers plain name)
    (behind : List Char)
    (other : ∀ name, IsName name.toList → ¬ reference name <+: c :: (plain ++ behind)) :
    ∀ name, ¬ Refers (c :: plain) name := by
  rintro name ⟨valid, inside⟩
  rcases List.infix_cons_iff.mp inside with first | later
  · exact other name valid (first.trans (List.prefix_append (c :: plain) behind))
  · exact bare name ⟨valid, later⟩

theorem IsCut.cons {template : Template} (cut : IsCut template) {c : Char}
    (other : ∀ name, IsName name.toList → ¬ reference name <+: c :: template.fill reference) :
    ∃ longer, IsCut longer ∧ longer.fill reference = c :: template.fill reference := by
  obtain ⟨leading, last⟩ := template
  cases leading with
  | nil =>
      have bare : ∀ name, ¬ Refers (c :: last) name :=
        not_refers_cons (cut.plains last (by simp)) [] (by simpa using other)
      exact ⟨⟨[], c :: last⟩, ⟨by simp, by simpa using bare⟩, rfl⟩
  | cons part leading =>
      obtain ⟨plain, name⟩ := part
      obtain ⟨bare, plains⟩ := List.forall_mem_cons.mp cut.plains
      rw [Template.fill_cons] at other ⊢
      refine ⟨⟨(c :: plain, name) :: leading, last⟩, ⟨cut.names, ?_⟩, by simp⟩
      exact List.forall_mem_cons.mpr ⟨not_refers_cons bare _ other, plains⟩

theorem exists_isCut (text : List Char) :
    ∃ template, IsCut template ∧ template.fill reference = text := by
  by_cases met : ∃ name : String, IsName name.toList ∧ reference name <+: text
  · obtain ⟨name, valid, rest, joined⟩ := met
    have shorter : rest.length < text.length := by
      rw [← joined]
      simp only [reference, List.length_append, List.length_cons]
      omega
    obtain ⟨⟨leading, last⟩, cut, rfl⟩ := exists_isCut rest
    refine ⟨⟨([], name) :: leading, last⟩, ⟨?_, ?_⟩, by simpa using joined⟩
    · exact List.forall_mem_cons.mpr ⟨valid, cut.names⟩
    · refine List.forall_mem_cons.mpr ⟨fun other ⟨_, inside⟩ => ?_, cut.plains⟩
      simp [reference] at inside
  · cases text with
    | nil =>
        refine ⟨⟨[], []⟩, ⟨by simp, ?_⟩, rfl⟩
        refine List.forall_mem_singleton.mpr fun other ⟨_, inside⟩ => ?_
        simp [reference] at inside
    | cons c rest =>
        obtain ⟨template, cut, rfl⟩ := exists_isCut rest
        exact cut.cons fun name valid starts => met ⟨name, valid, starts⟩
termination_by text.length
decreasing_by
  · exact shorter
  · simp

theorem isCut_join {first second : Template} {name : String} :
    IsCut (first.join name second) ↔ IsCut first ∧ IsName name.toList ∧ IsCut second := by
  constructor
  · intro cut
    have names := cut.names
    have plains := cut.plains
    rw [Template.names_join, List.forall_mem_append, List.forall_mem_cons] at names
    rw [Template.plains_join, List.forall_mem_append] at plains
    exact ⟨⟨names.1, plains.1⟩, names.2.1, ⟨names.2.2, plains.2⟩⟩
  · rintro ⟨front, valid, back⟩
    constructor
    · rw [Template.names_join, List.forall_mem_append, List.forall_mem_cons]
      exact ⟨front.names, valid, back.names⟩
    · rw [Template.plains_join, List.forall_mem_append]
      exact ⟨front.plains, back.plains⟩

/-! Values. -/

section Expanding

variable (environment : Environment)

def valueIn (name : String) : List Char :=
  ((environment.lookup name).getD "").toList

def expandPieces (list : List Piece) : Except String (List Char) :=
  List.flatten <$> list.mapM (Piece.expand environment)

theorem expandText_eq (text : String) :
    expandText environment text =
      String.ofList <$> expandPieces environment (pieces text.toList) := by
  rw [expandText, expandPieces]
  cases (pieces text.toList).mapM (Piece.expand environment) <;> rfl

theorem expandPieces_cons (piece : Piece) (list : List Piece) :
    expandPieces environment (piece :: list) =
      (piece.expand environment).bind fun value =>
        (value ++ ·) <$> expandPieces environment list := by
  rw [expandPieces, expandPieces, List.mapM_cons]
  cases piece.expand environment with
  | error name => rfl
  | ok value => cases list.mapM (Piece.expand environment) <;> rfl

theorem expandPieces_plain (plain : List Char) (list : List Piece) :
    expandPieces environment (plain.map .plain ++ list) =
      (plain ++ ·) <$> expandPieces environment list := by
  induction plain with
  | nil => simp
  | cons c plain ih =>
      rw [List.map_cons, List.cons_append, expandPieces_cons, ih, Piece.expand]
      cases expandPieces environment list <;> rfl

/-- The first of a template's variables that is not set. -/
def firstUnset? (template : Template) : Option String :=
  template.names.find? fun name => (environment.lookup name).isNone

theorem expandPieces_piecesOf (template : Template) :
    expandPieces environment (piecesOf template) =
      match firstUnset? environment template with
      | some name => .error name
      | none => .ok (template.fill (valueIn environment)) := by
  obtain ⟨leading, last⟩ := template
  induction leading with
  | nil =>
      have whole := expandPieces_plain environment last []
      rw [List.append_nil] at whole
      rw [piecesOf, List.flatMap_nil, List.nil_append, whole]
      exact congrArg Except.ok (List.append_nil last)
  | cons part leading ih =>
      obtain ⟨plain, name⟩ := part
      rw [piecesOf_cons, expandPieces_plain, expandPieces_cons, ih, Piece.expand, firstUnset?,
        firstUnset?, Template.names_cons, List.find?_cons]
      cases set : environment.lookup name with
      | none => rfl
      | some value =>
          have here : valueIn environment name = value.toList := by simp [valueIn, set]
          rw [Option.isNone_some, Template.fill_cons, here]
          cases List.find? (fun name => (environment.lookup name).isNone)
              (Template.names ⟨leading, last⟩) <;> rfl

theorem expandText_of_isCut {template : Template} (cut : IsCut template) {text : String}
    (whole : template.fill reference = text.toList) :
    expandText environment text =
      match firstUnset? environment template with
      | some name => .error name
      | none => .ok (String.ofList (template.fill (valueIn environment))) := by
  rw [expandText_eq, ← whole, pieces_fill cut, expandPieces_piecesOf]
  cases firstUnset? environment template <;> rfl

theorem firstUnset?_eq_none {template : Template} :
    firstUnset? environment template = none ↔
      ∀ name ∈ template.names, environment.lookup name ≠ none := by
  simp [firstUnset?]

theorem firstUnset?_eq_some {template : Template} {name : String} :
    firstUnset? environment template = some name ↔ environment.lookup name = none ∧
      ∃ first second : Template, template = first.join name second ∧
        ∀ other ∈ first.names, environment.lookup other ≠ none := by
  rw [firstUnset?, List.find?_eq_some_iff_append]
  simp only [Option.isNone_iff_eq_none]
  refine and_congr_right fun _ => ⟨?_, ?_⟩
  · intro ⟨front, back, split, earlier⟩
    obtain ⟨first, second, rfl, rfl, rfl⟩ := Template.exists_join split
    exact ⟨first, second, rfl, fun other member unset => by simpa [unset] using earlier other member⟩
  · intro ⟨first, second, split, earlier⟩
    refine ⟨first.names, second.names, split ▸ Template.names_join first second name, ?_⟩
    intro other member
    cases set : environment.lookup other with
    | none => exact absurd set (earlier other member)
    | some value => rfl

/-- A text and what it becomes: its references are replaced at once, all else is kept. -/
def Substituted (text result : String) : Prop :=
  ∃ template, IsCut template ∧ template.fill reference = text.toList ∧
    (∀ name ∈ template.names, environment.lookup name ≠ none) ∧
    template.fill (valueIn environment) = result.toList

/-- Every variable that a text refers to is set. -/
def AllSet (text : List Char) : Prop :=
  ∀ name, Refers text name → environment.lookup name ≠ none

/-- A reference to a variable that is not set, behind a text all of whose variables are. -/
def FirstUnset (text name : String) : Prop :=
  ∃ before after, text.toList = before ++ (reference name ++ after) ∧ IsName name.toList ∧
    environment.lookup name = none ∧ AllSet environment before

theorem allSet_fill {template : Template} (cut : IsCut template) :
    AllSet environment (template.fill reference) ↔
      ∀ name ∈ template.names, environment.lookup name ≠ none :=
  forall_congr' fun _ => imp_congr_left (refers_fill_iff cut)

theorem expandText_eq_ok {text result : String} :
    expandText environment text = .ok result ↔ Substituted environment text result := by
  constructor
  · intro expanded
    obtain ⟨template, cut, whole⟩ := exists_isCut text.toList
    rw [expandText_of_isCut environment cut whole] at expanded
    cases unset : firstUnset? environment template with
    | some name => simp [unset] at expanded
    | none =>
        rw [unset] at expanded
        cases expanded
        exact ⟨template, cut, whole, (firstUnset?_eq_none environment).mp unset, by simp⟩
  · intro ⟨template, cut, whole, set, written⟩
    rw [expandText_of_isCut environment cut whole, (firstUnset?_eq_none environment).mpr set, written,
      String.ofList_toList]

theorem expandText_eq_error {text name : String} :
    expandText environment text = .error name ↔ FirstUnset environment text name := by
  constructor
  · intro failed
    obtain ⟨template, cut, whole⟩ := exists_isCut text.toList
    rw [expandText_of_isCut environment cut whole] at failed
    cases unset : firstUnset? environment template with
    | none => simp [unset] at failed
    | some found =>
        rw [unset] at failed
        cases failed
        obtain ⟨missing, first, second, rfl, earlier⟩ := (firstUnset?_eq_some environment).mp unset
        obtain ⟨front, valid, -⟩ := isCut_join.mp cut
        rw [Template.fill_join] at whole
        exact ⟨_, _, whole.symm, valid, missing, (allSet_fill environment front).mpr earlier⟩
  · intro ⟨before, after, whole, valid, missing, earlier⟩
    obtain ⟨first, front, rfl⟩ := exists_isCut before
    obtain ⟨second, back, rfl⟩ := exists_isCut after
    have cut : IsCut (first.join name second) := isCut_join.mpr ⟨front, valid, back⟩
    have unset : firstUnset? environment (first.join name second) = some name :=
      (firstUnset?_eq_some environment).mpr
        ⟨missing, first, second, rfl, (allSet_fill environment front).mp earlier⟩
    rw [← Template.fill_join] at whole
    rw [expandText_of_isCut environment cut whole.symm, unset]

theorem Substituted.allSet {environment : Environment} {text result : String}
    (substituted : Substituted environment text result) : AllSet environment text.toList := by
  obtain ⟨template, cut, whole, set, -⟩ := substituted
  rw [← whole]
  exact (allSet_fill environment cut).mpr set

end Expanding

end ApiCompiler.Variables
