import ApiCompiler.Proofs.Script.ReadBack
import ApiCompiler.Proofs.Text.Blank
import ApiCompiler.Script.Layout

/-!
Quoted literals and the names of members, read where they stand in a text: a literal ends where it was
meant to end and never ends its line, and a name is kept unless it ends in a line feed.
-/

namespace ApiCompiler.Script

/-! Literals. -/

/-- A double-quoted literal at the start of a text, and what follows it. -/
def readLiteral? : List Char → Option (String × List Char)
  | '"' :: text => readText? text
  | _ => none

theorem toList_stringLiteral_append (text : String) (rest : List Char) :
    (stringLiteral text).toList ++ rest =
      '"' :: (text.toList.flatMap Text.quoteChar ++ '"' :: rest) := by
  simp [stringLiteral, String.quoted, Text.quote]

theorem readLiteral?_stringLiteral (text : String) (rest : List Char) :
    readLiteral? ((stringLiteral text).toList ++ rest) = some (text, rest) := by
  rw [toList_stringLiteral_append, readLiteral?, readText?_quoted, String.ofList_toList]

theorem stringLiteral_append_inj {text other : String} {rest more : List Char}
    (same : (stringLiteral text).toList ++ rest = (stringLiteral other).toList ++ more) :
    text = other ∧ rest = more := by
  have read := congrArg readLiteral? same
  rw [readLiteral?_stringLiteral, readLiteral?_stringLiteral] at read
  exact Prod.mk.inj (Option.some.inj read)

def IsPrintable (c : Char) : Prop :=
  0x20 ≤ c.toNat

instance : DecidablePred IsPrintable := fun c => inferInstanceAs (Decidable (0x20 ≤ c.toNat))

theorem isPrintable_shortEscape {c : Char} {escape : List Char}
    (short : Text.shortEscape? c = some escape) : ∀ d ∈ escape, IsPrintable d := by
  simp only [Text.shortEscape?] at short
  split_ifs at short <;> cases short <;> simp [IsPrintable]

theorem isPrintable_unitEscape {n : Nat} (control : n < 0x20) :
    ∀ d ∈ Text.unitEscape n, IsPrintable d := by
  have each : ∀ n < 0x20, (Text.unitEscape n).all (fun d => decide (IsPrintable d)) = true := by
    decide +kernel
  simpa using each n control

theorem isPrintable_quoteChar (c : Char) : ∀ d ∈ Text.quoteChar c, IsPrintable d := by
  rw [Text.quoteChar]
  split
  · rename_i escape short
    exact isPrintable_shortEscape short
  · split
    · rename_i control
      exact isPrintable_unitEscape control
    · rename_i printable
      exact List.forall_mem_singleton.mpr (Nat.not_lt.mp printable)

theorem isPrintable_stringLiteral (text : String) :
    ∀ c ∈ (stringLiteral text).toList, IsPrintable c := by
  have letters := toList_stringLiteral_append text []
  rw [List.append_nil] at letters
  rw [letters]
  have mark : IsPrintable '"' := by decide
  refine List.forall_mem_cons.mpr
    ⟨mark, List.forall_mem_append.mpr ⟨?_, List.forall_mem_singleton.mpr mark⟩⟩
  intro d member
  obtain ⟨c, -, inside⟩ := List.mem_flatMap.mp member
  exact isPrintable_quoteChar c d inside

theorem finished_line {text : String} (some : text ≠ "") (page : Page) :
    (page.line text).finished =
      page.finished.push (page.pending.getD page.margin ++ text).trimBlanksRight := by
  simp [Page.line, Page.write, some]

/--
A literal is read as the text it was made from and no further, whatever stands behind it. It holds no
control character, so a line written with a literal in it ends one line, with no line feed in it that
the literal has brought.
-/
theorem stringLiteral_contained (text : String) (rest : List Char) (front back : String)
    (page : Page) :
    readLiteral? ((stringLiteral text).toList ++ rest) = some (text, rest) ∧
      (∀ c ∈ (stringLiteral text).toList, 0x20 ≤ c.toNat) ∧
      ∃ ended : String,
        (page.line (front ++ stringLiteral text ++ back)).finished = page.finished.push ended ∧
        ended.toList.count '\n' ≤
          (page.pending.getD page.margin ++ front ++ back).toList.count '\n' := by
  refine ⟨readLiteral?_stringLiteral text rest, isPrintable_stringLiteral text, _,
    finished_line ?_ page, ?_⟩
  · intro empty
    have letters := congrArg String.toList empty
    simp [stringLiteral, String.quoted, Text.quote] at letters
  · have none : (stringLiteral text).toList.count '\n' = 0 :=
      List.count_eq_zero.mpr fun member =>
        absurd (isPrintable_stringLiteral text _ member) (by decide)
    have fewer := (Text.trimRight_isPrefix (page.pending.getD page.margin ++
      (front ++ stringLiteral text ++ back)).toList).sublist.count_le '\n'
    rw [String.trimBlanksRight, String.toList_ofList]
    refine fewer.trans (Nat.le_of_eq ?_)
    simp [none]

/-! Names of members. -/

/-- The name of a member of an object literal, and what follows it. -/
def readKey? : List Char → Option (String × List Char)
  | '"' :: text => readText? text
  | text => readName? text

theorem readKey?_stringLiteral (name : String) (rest : List Char) :
    readKey? ((stringLiteral name).toList ++ rest) = some (name, rest) := by
  rw [toList_stringLiteral_append, readKey?, readText?_quoted, String.ofList_toList]

theorem readKey?_name {name rest : List Char} (whole : isName name = true)
    (stops : ∀ c ∈ rest.head?, isNamePart c = false) :
    readKey? (name ++ rest) = some (String.ofList name, rest) := by
  rw [readKey?, readName?_of_isName whole stops]
  intro text quoted
  cases name with
  | nil => cases whole
  | cons c name =>
      obtain ⟨rfl, -⟩ := List.cons.inj quoted
      simp [isName, isNameStart] at whole

/-- A name with a line feed at its end passes for the name without it. -/
theorem isPlainName_iff {name : List Char} :
    isPlainName name = true ↔
      isName name = true ∨ ∃ plain, isName plain = true ∧ name = plain ++ ['\n'] := by
  cases name with
  | nil => simp [isPlainName, isName]
  | cons c rest =>
      by_cases ends : rest.getLast? = some '\n'
      · obtain ⟨front, rfl⟩ := List.getLast?_eq_some_iff.mp ends
        have broken : isName (c :: (front ++ ['\n'])) = false := by simp [isName, isNamePart]
        have kept : isPlainName (c :: (front ++ ['\n'])) = isName (c :: front) := by
          simp [isPlainName, isName]
        rw [kept, broken]
        constructor
        · exact fun plain => .inr ⟨c :: front, plain, rfl⟩
        · rintro (unbroken | ⟨plain, whole, same⟩)
          · cases unbroken
          · have shorter : c :: front = plain := List.append_cancel_right same
            rwa [shorter]
      · have kept : isPlainName (c :: rest) = isName (c :: rest) := by
          simp [isPlainName, isName, ends]
        rw [kept]
        constructor
        · exact .inl
        · rintro (whole | ⟨plain, whole, same⟩)
          · exact whole
          · cases plain with
            | nil => cases whole
            | cons d plain =>
                obtain ⟨-, rfl⟩ := List.cons.inj same
                simp at ends

/-- A name that is a plain one with a line feed after it. -/
def EndsInLineFeed (name : String) : Prop :=
  ∃ plain, isName plain = true ∧ name.toList = plain ++ ['\n']

theorem readKey?_of_endsInLineFeed {name : String} (ends : EndsInLineFeed name)
    (rest : List Char) :
    ∃ plain : String, name = plain ++ "\n" ∧
      readKey? ((propertyKey name).toList ++ rest) = some (plain, '\n' :: rest) := by
  obtain ⟨plain, whole, letters⟩ := ends
  have passes := isPlainName_iff.mpr (.inr ⟨plain, whole, letters⟩)
  refine ⟨String.ofList plain, ?_, ?_⟩
  · rw [← String.toList_inj, letters]
    simp
  · rw [propertyKey, if_pos passes, letters, List.append_assoc]
    exact readKey?_name whole (by simp [isNamePart])

theorem propertyKey_of_not_endsInLineFeed {name : String} (kept : ¬EndsInLineFeed name) :
    (isName name.toList = true ∧ propertyKey name = name) ∨
      (isName name.toList = false ∧ propertyKey name = stringLiteral name) := by
  by_cases passes : isPlainName name.toList = true
  · have whole := (isPlainName_iff.mp passes).resolve_right kept
    exact .inl ⟨whole, if_pos passes⟩
  · refine .inr ⟨?_, if_neg passes⟩
    exact Bool.eq_false_iff.mpr fun whole => passes (isPlainName_iff.mpr (.inl whole))

theorem readKey?_of_not_endsInLineFeed {name : String} (kept : ¬EndsInLineFeed name)
    (rest : List Char) :
    readKey? ((propertyKey name).toList ++ ':' :: rest) = some (name, ':' :: rest) := by
  rcases propertyKey_of_not_endsInLineFeed kept with ⟨whole, bare⟩ | ⟨-, quoted⟩
  · rw [bare, readKey?_name whole (by simp [isNamePart]), String.ofList_toList]
  · rw [quoted, readKey?_stringLiteral]

/-- The key of a member stands for its name exactly if this does not end in a line feed. -/
theorem readKey?_propertyKey_iff (name : String) (rest : List Char) :
    readKey? ((propertyKey name).toList ++ ':' :: rest) = some (name, ':' :: rest) ↔
      ¬EndsInLineFeed name := by
  constructor
  · intro read ends
    obtain ⟨plain, -, cut⟩ := readKey?_of_endsInLineFeed ends (':' :: rest)
    rw [cut] at read
    simp at read
  · exact fun kept => readKey?_of_not_endsInLineFeed kept rest

example : propertyKey "id\n" = "id\n" := by decide

theorem propertyKey_append_inj {name other : String} {rest more : List Char}
    (same : (propertyKey name).toList ++ ':' :: rest = (propertyKey other).toList ++ ':' :: more) :
    name = other ∧ rest = more := by
  have read := congrArg readKey? same
  by_cases ends : EndsInLineFeed name <;> by_cases otherEnds : EndsInLineFeed other
  · obtain ⟨plain, rfl, cut⟩ := readKey?_of_endsInLineFeed ends (':' :: rest)
    obtain ⟨otherPlain, rfl, otherCut⟩ := readKey?_of_endsInLineFeed otherEnds (':' :: more)
    rw [cut, otherCut] at read
    simpa using read
  · obtain ⟨plain, -, cut⟩ := readKey?_of_endsInLineFeed ends (':' :: rest)
    rw [cut, readKey?_of_not_endsInLineFeed otherEnds] at read
    simp at read
  · obtain ⟨plain, -, cut⟩ := readKey?_of_endsInLineFeed otherEnds (':' :: more)
    rw [cut, readKey?_of_not_endsInLineFeed ends] at read
    simp at read
  · rw [readKey?_of_not_endsInLineFeed ends, readKey?_of_not_endsInLineFeed otherEnds] at read
    simpa using read

end ApiCompiler.Script
