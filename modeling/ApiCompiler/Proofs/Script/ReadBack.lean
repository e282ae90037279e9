import Mathlib.Data.List.TakeWhile
import ApiCompiler.Proofs.Json.Quoted
import ApiCompiler.Proofs.Naming.Identifier
import ApiCompiler.Proofs.Script.Reading

/-!
Names, texts, templates and object literals are read back as they were written.
-/

namespace ApiCompiler.Script

theorem isNameStart_of_isLower {c : Char} (lower : c.isLower = true) : isNameStart c = true := by
  have letter : c.isAlpha = (c.isUpper || c.isLower) := rfl
  simp [isNameStart, letter, lower]

theorem isNamePart_of_isAlphanum {c : Char} (usable : c.isAlphanum = true) :
    isNamePart c = true := by
  simp [isNamePart, usable]

def isName : List Char → Bool
  | [] => false
  | c :: rest => isNameStart c && rest.all isNamePart

theorem isName_of_isIdentifier {name : List Char} (identifier : Naming.isIdentifier name = true) :
    isName name = true := by
  cases name with
  | nil => cases identifier
  | cons c rest =>
      simp only [Naming.isIdentifier, Bool.and_eq_true, List.all_eq_true] at identifier
      simp only [isName, isNameStart_of_isLower identifier.1, Bool.true_and, List.all_eq_true]
      exact fun d member => isNamePart_of_isAlphanum (identifier.2 d member)

theorem isNamePart_of_isNameStart {c : Char} (start : isNameStart c = true) :
    isNamePart c = true := by
  simp only [isNameStart, Bool.or_eq_true, decide_eq_true_eq] at start
  rcases start with (letter | rfl) | rfl
  · simp [isNamePart, Char.isAlphanum, letter]
  · rfl
  · rfl

theorem readName?_of_isName {name rest : List Char} (whole : isName name = true)
    (stops : ∀ c ∈ rest.head?, isNamePart c = false) :
    readName? (name ++ rest) = some (String.ofList name, rest) := by
  have cut : rest.takeWhile isNamePart = [] ∧ rest.dropWhile isNamePart = rest := by
    cases rest with
    | nil => simp
    | cons c rest => simp [stops c (by simp)]
  cases name with
  | nil => cases whole
  | cons c name =>
      simp only [isName, Bool.and_eq_true, List.all_eq_true] at whole
      have parts : ∀ d ∈ c :: name, isNamePart d = true :=
        List.forall_mem_cons.mpr ⟨isNamePart_of_isNameStart whole.1, whole.2⟩
      rw [List.cons_append, readName?]
      simp only [whole.1, if_true]
      rw [← List.cons_append, List.takeWhile_append_of_pos parts,
        List.dropWhile_append_of_pos parts, cut.1, cut.2, List.append_nil]

theorem readName?_append {name rest : List Char} (identifier : Naming.isIdentifier name = true)
    (stops : ∀ c ∈ rest.head?, isNamePart c = false) :
    readName? (name ++ rest) = some (String.ofList name, rest) :=
  readName?_of_isName (isName_of_isIdentifier identifier) stops

theorem readText?_quoted (text rest : List Char) :
    readText? (text.flatMap Text.quoteChar ++ '"' :: rest) = some (String.ofList text, rest) := by
  have short := Json.length_le_flatMap Json.quoteChar_ne_nil text
  rw [readText?, Json.readQuoted_flatMap_quoteChar _ _ _ _ (by rw [List.length_append]; omega)]
  rfl

/-- A character of a template, where no dollar sign precedes a brace. -/
theorem readPieces?_character {c : Char} {rest : List Char} (noReturn : c ≠ '\r')
    (noHole : c = '$' → rest.head? ≠ some '\x7b') :
    readPieces? none (templateChar c ++ rest) =
      (readPieces? none rest).map fun (pieces, rest) => (.character c :: pieces, rest) := by
  by_cases backslash : c = '\\'
  · subst backslash
    rw [show templateChar '\\' ++ rest = '\\' :: '\\' :: rest from rfl, readPieces?]
    cases readPieces? none rest <;> rfl
  by_cases backtick : c = '\x60'
  · subst backtick
    rw [show templateChar '\x60' ++ rest = '\\' :: '\x60' :: rest from rfl, readPieces?]
    cases readPieces? none rest <;> rfl
  have plain : templateChar c = [c] := by simp [templateChar, backslash, backtick]
  rw [plain, List.singleton_append, readPieces?]
  · cases readPieces? none rest <;> rfl
  · exact backtick
  · exact fun _ same _ => backslash same
  · exact fun _ same _ => backslash same
  · exact backslash
  · exact fun _ same _ => noReturn same
  · exact noReturn
  · rintro _ rfl rfl
    exact noHole rfl rfl

/-- The characters of an open name, up to the brace that closes it. -/
theorem readPieces?_name (front : List Char) {name : List Char} (unclosed : '\x7d' ∉ name)
    (rest : List Char) :
    readPieces? (some front) (name ++ rest) = readPieces? (some (front ++ name)) rest := by
  induction name generalizing front with
  | nil => simp
  | cons c name ih =>
      have other : c ≠ '\x7d' := fun same => unclosed (by simp [same])
      rw [List.cons_append, readPieces?]
      · rw [ih _ fun inside => unclosed (by simp [inside])]
        simp
      · exact other

theorem readPieces?_hole {name rest : List Char} (identifier : Naming.isIdentifier name = true) :
    readPieces? none ('$' :: '\x7b' :: name ++ '\x7d' :: rest) =
      (readPieces? none rest).map fun (pieces, rest) =>
        (.hole (String.ofList name) :: pieces, rest) := by
  have unclosed : '\x7d' ∉ name := fun inside =>
    absurd (Naming.isAlphanum_of_isIdentifier identifier _ inside) (by decide)
  have whole : readName? name = some (String.ofList name, []) := by
    simpa using @readName?_append name [] identifier (by simp)
  rw [List.cons_append, List.cons_append, readPieces?, readPieces?_name [] unclosed,
    List.nil_append, readPieces?, whole]
  cases found : readPieces? none rest <;> simp

/-- A text after which no name and no member goes on. -/
def EndsItem (rest : List Char) : Prop :=
  ∀ c ∈ rest.head?, isNamePart c = false ∧ c ≠ ':'

/-- The text is read as an operand wherever one ends. -/
def ReadsOperand (text : String) (operand : Operand) : Prop :=
  ∀ fuel rest, text.length < fuel → EndsItem rest →
    readOperand? fuel (text.toList ++ rest) = some (operand, rest)

/-- The text is read as a member of an object literal wherever one ends. -/
def ReadsMember (text : String) (member : String × Operand) : Prop :=
  ∀ fuel rest, text.length < fuel → EndsItem rest →
    readMember? fuel (text.toList ++ rest) = some (member, rest)

theorem endsItem_comma (rest : List Char) : EndsItem (',' :: rest) := by
  simp [EndsItem, isNamePart]

theorem endsItem_blank (rest : List Char) : EndsItem (' ' :: rest) := by
  simp [EndsItem, isNamePart]

theorem endsItem_closing (rest : List Char) : EndsItem (')' :: rest) := by
  simp [EndsItem, isNamePart]

theorem head?_name_append {name : List Char} (identifier : Naming.isIdentifier name = true)
    (rest : List Char) :
    ∀ c ∈ (name ++ rest).head?, c.isLower = true := by
  cases name with
  | nil => cases identifier
  | cons first name =>
      simp only [Naming.isIdentifier, Bool.and_eq_true] at identifier
      simpa using identifier.1

theorem readsOperand_name {name : String} (identifier : Naming.isIdentifier name.toList = true) :
    ReadsOperand name (.name name) := by
  rintro (_ | fuel) rest enough ends
  · cases enough
  have head := head?_name_append identifier rest
  rw [readOperand?, readName?_append identifier fun c member => (ends c member).1,
    String.ofList_toList]
  · rfl
  all_goals
    intro _ same
    rw [same] at head
    exact absurd (head _ rfl) (by decide)

theorem readsOperand_text (text : String) : ReadsOperand (stringLiteral text) (.text text) := by
  rintro (_ | fuel) rest enough _
  · cases enough
  have letters : (stringLiteral text).toList ++ rest =
      '"' :: (text.toList.flatMap Text.quoteChar ++ '"' :: rest) := by
    simp [stringLiteral, String.quoted, Text.quote]
  rw [letters, readOperand?, readText?_quoted, String.ofList_toList]
  rfl

theorem readsMember_plain {name text : String} {operand : Operand}
    (identifier : Naming.isIdentifier name.toList = true) (reads : ReadsOperand text operand) :
    ReadsMember (name ++ ": " ++ text) (name, operand) := by
  rintro (_ | fuel) rest enough ends
  · cases enough
  have letters : (name ++ ": " ++ text).toList ++ rest =
      name.toList ++ ':' :: ' ' :: (text.toList ++ rest) := by simp
  have left : text.length < fuel := by
    simp only [String.length_append] at enough
    have : ": ".length = 2 := rfl
    omega
  have head := head?_name_append identifier (':' :: ' ' :: (text.toList ++ rest))
  rw [letters, readMember?, readName?_append identifier (by simp [isNamePart]),
    String.ofList_toList]
  · simp [reads fuel rest left ends]
  · intro _ same
    rw [same] at head
    exact absurd (head _ rfl) (by decide)

theorem readsMember_quoted {name text : String} {operand : Operand}
    (reads : ReadsOperand text operand) :
    ReadsMember (stringLiteral name ++ ": " ++ text) (name, operand) := by
  rintro (_ | fuel) rest enough ends
  · cases enough
  have letters : (stringLiteral name ++ ": " ++ text).toList ++ rest =
      '"' :: (name.toList.flatMap Text.quoteChar ++ '"' :: ':' :: ' ' :: (text.toList ++ rest)) := by
    simp [stringLiteral, String.quoted, Text.quote]
  have left : text.length < fuel := by
    simp only [String.length_append] at enough
    have : ": ".length = 2 := rfl
    omega
  rw [letters, readMember?, readText?_quoted, String.ofList_toList]
  simp [Text.after?, reads fuel rest left ends]

theorem readsMember_shorthand {name : String}
    (identifier : Naming.isIdentifier name.toList = true) :
    ReadsMember name (name, .name name) := by
  rintro (_ | fuel) rest enough ends
  · cases enough
  have head := head?_name_append identifier rest
  rw [readMember?, readName?_append identifier fun c member => (ends c member).1,
    String.ofList_toList]
  · simp only [Option.bind_eq_bind, Option.bind_some]
    split
    · rename_i rest
      exact absurd rfl (ends ':' rfl).2
    · rfl
  · intro _ same
    rw [same] at head
    exact absurd (head _ rfl) (by decide)

/-! Members and operands one after the other. -/

theorem toList_intercalate_cons_cons (first second : String) (texts : List String)
    (rest : List Char) :
    (String.intercalate ", " (first :: second :: texts)).toList ++ rest =
      first.toList ++ ',' :: ' ' ::
        ((String.intercalate ", " (second :: texts)).toList ++ rest) := by
  simp [String.intercalate_cons_cons]

theorem length_intercalate_cons_cons (first second : String) (texts : List String) :
    (String.intercalate ", " (first :: second :: texts)).length =
      first.length + 2 + (String.intercalate ", " (second :: texts)).length := by
  rw [String.intercalate_cons_cons, String.length_append, String.length_append]
  rfl

theorem readMembers?_intercalate {members : List (String × String × Operand)} {fuel : Nat}
    (nonempty : members ≠ []) (each : ∀ member ∈ members, ReadsMember member.1 member.2)
    (enough : (String.intercalate ", " (members.map Prod.fst)).length + 1 < fuel)
    (rest : List Char) :
    readMembers? fuel ((String.intercalate ", " (members.map Prod.fst)).toList ++
        ' ' :: '\x7d' :: rest) =
      some (members.map Prod.snd, rest) := by
  induction members generalizing fuel with
  | nil => exact absurd rfl nonempty
  | cons first members ih =>
      obtain ⟨fuel, rfl⟩ := Nat.exists_eq_add_one_of_ne_zero (Nat.ne_zero_of_lt enough)
      have reads := each first (by simp)
      cases members with
      | nil =>
          rw [List.map_singleton, String.intercalate_singleton] at enough ⊢
          rw [readMembers?, reads fuel _ (by omega) (endsItem_blank _)]
          rfl
      | cons second members =>
          simp only [List.map_cons, length_intercalate_cons_cons] at enough ih ⊢
          have more := @ih fuel (by simp) (fun member inside => each member (by simp [inside]))
            (by omega)
          rw [toList_intercalate_cons_cons, readMembers?,
            reads fuel _ (by omega) (endsItem_comma _)]
          simp only [Option.bind_eq_bind, Option.bind_some, more]
          rfl

theorem readOperands?_intercalate {operands : List (String × Operand)} {fuel : Nat}
    (nonempty : operands ≠ []) (each : ∀ operand ∈ operands, ReadsOperand operand.1 operand.2)
    (enough : (String.intercalate ", " (operands.map Prod.fst)).length + 1 < fuel)
    (rest : List Char) :
    readOperands? fuel ((String.intercalate ", " (operands.map Prod.fst)).toList ++ ')' :: rest) =
      some (operands.map Prod.snd, rest) := by
  induction operands generalizing fuel with
  | nil => exact absurd rfl nonempty
  | cons first operands ih =>
      obtain ⟨fuel, rfl⟩ := Nat.exists_eq_add_one_of_ne_zero (Nat.ne_zero_of_lt enough)
      have reads := each first (by simp)
      cases operands with
      | nil =>
          rw [List.map_singleton, String.intercalate_singleton] at enough ⊢
          rw [readOperands?, reads fuel _ (by omega) (endsItem_closing _)]
          rfl
      | cons second operands =>
          simp only [List.map_cons, length_intercalate_cons_cons] at enough ih ⊢
          have more := @ih fuel (by simp) (fun operand inside => each operand (by simp [inside]))
            (by omega)
          rw [toList_intercalate_cons_cons, readOperands?,
            reads fuel _ (by omega) (endsItem_comma _)]
          simp only [Option.bind_eq_bind, Option.bind_some, more]
          rfl

theorem readsOperand_empty : ReadsOperand "\x7b\x7d" (.object []) := by
  rintro (_ | fuel) rest enough _
  · cases enough
  rw [show "\x7b\x7d".toList ++ rest = '\x7b' :: '\x7d' :: rest from rfl, readOperand?]

theorem readsOperand_object {members : List (String × String × Operand)}
    (nonempty : members ≠ []) (each : ∀ member ∈ members, ReadsMember member.1 member.2) :
    ReadsOperand ("\x7b " ++ String.intercalate ", " (members.map Prod.fst) ++ " \x7d")
      (.object (members.map Prod.snd)) := by
  rintro (_ | fuel) rest enough _
  · cases enough
  have letters : ("\x7b " ++ String.intercalate ", " (members.map Prod.fst) ++ " \x7d").toList ++
        rest =
      '\x7b' :: ' ' :: ((String.intercalate ", " (members.map Prod.fst)).toList ++
        ' ' :: '\x7d' :: rest) := by simp
  have left : (String.intercalate ", " (members.map Prod.fst)).length + 1 < fuel := by
    simp only [String.length_append] at enough
    have : "\x7b ".length = 2 := rfl
    omega
  rw [letters, readOperand?, readMembers?_intercalate nonempty each left]
  rfl

theorem readsOperand_template {text : String} {pieces : List Piece}
    (reads : ∀ rest, readPieces? none (text.toList.flatMap templateChar ++ '\x60' :: rest) =
      some (pieces, rest)) :
    ReadsOperand (templateLiteral text) (.template pieces) := by
  rintro (_ | fuel) rest enough _
  · cases enough
  have letters : (templateLiteral text).toList ++ rest =
      '\x60' :: (text.toList.flatMap templateChar ++ '\x60' :: rest) := by
    simp [templateLiteral]
  rw [letters, readOperand?, reads]
  rfl

theorem readCall?_of_reads {method : String} {operands : List (String × Operand)}
    (identifier : Naming.isIdentifier method.toList = true) (nonempty : operands ≠ [])
    (each : ∀ operand ∈ operands, ReadsOperand operand.1 operand.2) :
    readCall? ("client." ++ method ++ "(" ++
        String.intercalate ", " (operands.map Prod.fst) ++ ")") =
      some ⟨method, operands.map Prod.snd⟩ := by
  have letters : ("client." ++ method ++ "(" ++
        String.intercalate ", " (operands.map Prod.fst) ++ ")").toList =
      "client.".toList ++ (method.toList ++ '(' ::
        ((String.intercalate ", " (operands.map Prod.fst)).toList ++ [')'])) := by
    simp
  have enough : (String.intercalate ", " (operands.map Prod.fst)).length + 1 <
      ("client." ++ method ++ "(" ++
        String.intercalate ", " (operands.map Prod.fst) ++ ")").length := by
    simp only [String.length_append]
    have : "client.".length = 7 := rfl
    omega
  rw [readCall?, letters, Text.after?_eq_some_iff.mpr rfl]
  simp only [Option.bind_eq_bind, Option.bind_some]
  rw [readName?_append identifier (by simp [isNamePart]), String.ofList_toList]
  simp only [Option.bind_some, Text.after?, if_true,
    readOperands?_intercalate nonempty each enough]
  rfl

end ApiCompiler.Script
