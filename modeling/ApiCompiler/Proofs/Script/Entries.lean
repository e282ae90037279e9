import ApiCompiler.Proofs.Script.Lines
import ApiCompiler.Proofs.Text.Blank
import ApiCompiler.Proofs.Text.Words
import ApiCompiler.Script.SourceFile

/-!
The entries of list and object literals, read from their text, and the literals that are written
with given entries.
-/

namespace ApiCompiler.Script

/-! Reading. -/

/-- What stands between commas, without the blanks around it. -/
def entriesWithin (text : List Char) : List (List Char) :=
  ((Text.splitAt ',' text).map Text.trim).filter fun entry => !entry.isEmpty

/-- The entries of a list or object literal none of whose entries holds a comma. -/
def entries (text : String) : List String :=
  (entriesWithin (text.toList.drop 1).dropLast).map String.ofList

/-! Single entries. -/

/-- An entry that is read as it is written. -/
structure IsEntry (entry : List Char) : Prop where
  some : entry ≠ []
  trimmed : Text.IsTrimmed entry
  undivided : ',' ∉ entry

theorem isBlank_of_isAlphanum {c : Char} (usable : c.isAlphanum = true) :
    Text.isBlank c = false := by
  have range : (65 ≤ c.toNat ∧ c.toNat ≤ 90) ∨ (97 ≤ c.toNat ∧ c.toNat ≤ 122) ∨
      (48 ≤ c.toNat ∧ c.toNat ≤ 57) := by
    rw [Text.isAlphanum_eq, Bool.or_eq_true, Bool.or_eq_true, Text.isUpper_iff,
      Text.isLower_iff] at usable
    rcases usable with (upper | lower) | digit
    · exact .inl upper
    · exact .inr (.inl lower)
    · have bounds : c.val ≥ '0'.val ∧ c.val ≤ '9'.val := by simpa [Char.isDigit] using digit
      exact .inr (.inr ⟨UInt32.le_iff_toNat_le.mp bounds.1, UInt32.le_iff_toNat_le.mp bounds.2⟩)
  simp only [Text.isBlank, Bool.or_eq_false_iff, Bool.and_eq_false_iff, decide_eq_false_iff_not,
    beq_eq_false_iff_ne]
  omega

theorem IsEntry.of_solid {entry : List Char} (some : entry ≠ [])
    (solid : ∀ c ∈ entry, Text.isBlank c = false) (undivided : ',' ∉ entry) : IsEntry entry :=
  ⟨some, ⟨fun c first => solid c (List.mem_of_head? first),
    fun c last => solid c (List.mem_of_getLast? last)⟩, undivided⟩

theorem IsEntry.append {first second : List Char} (before : IsEntry first)
    (after : IsEntry second) : IsEntry (first ++ second) := by
  refine ⟨by simp [before.some], ⟨?_, ?_⟩, by simp [before.undivided, after.undivided]⟩
  · rw [List.head?_append_of_ne_nil _ before.some]
    exact before.trimmed.first
  · rw [List.getLast?_append_of_ne_nil _ after.some]
    exact after.trimmed.last

section Within

variable {lead trail : List Char}

theorem comma_not_mem_blank (blank : ∀ c ∈ lead, Text.isBlank c = true) : ',' ∉ lead :=
  fun inside => absurd (blank ',' inside) (by decide)

theorem entriesWithin_blank (blank : ∀ c ∈ lead, Text.isBlank c = true) :
    entriesWithin lead = [] := by
  rw [entriesWithin, Text.splitAt_of_not_mem (comma_not_mem_blank blank), List.map_singleton,
    Text.trim_eq_nil_iff.mpr blank]
  rfl

theorem entriesWithin_last {entry : List Char} (blank : ∀ c ∈ lead, Text.isBlank c = true)
    (behind : ∀ c ∈ trail, Text.isBlank c = true) (kept : IsEntry entry) :
    entriesWithin (lead ++ entry ++ trail) = [entry] := by
  have undivided : ',' ∉ lead ++ entry ++ trail := by
    simp [comma_not_mem_blank blank, comma_not_mem_blank behind, kept.undivided]
  rw [entriesWithin, Text.splitAt_of_not_mem undivided, List.map_singleton,
    Text.trim_append_append kept.some kept.trimmed blank behind]
  simp [kept.some]

theorem entriesWithin_cons {entry : List Char} (blank : ∀ c ∈ lead, Text.isBlank c = true)
    (kept : IsEntry entry) (rest : List Char) :
    entriesWithin (lead ++ entry ++ ',' :: rest) = entry :: entriesWithin rest := by
  have undivided : ',' ∉ lead ++ entry := by
    simp [comma_not_mem_blank blank, kept.undivided]
  have trimmed := @Text.trim_append_append lead entry [] kept.some kept.trimmed blank (by simp)
  rw [List.append_nil] at trimmed
  rw [entriesWithin, Text.splitAt_append undivided, List.map_cons, trimmed,
    List.filter_cons_of_pos (by simp [kept.some])]
  rfl

end Within

/-! Lists. -/

theorem entriesWithin_intercalate {lead trail : List Char}
    (blank : ∀ c ∈ lead, Text.isBlank c = true) (behind : ∀ c ∈ trail, Text.isBlank c = true)
    {items : List String} (kept : ∀ item ∈ items, IsEntry item.toList) :
    entriesWithin (lead ++ (String.intercalate ", " items).toList ++ trail) =
      items.map String.toList := by
  induction items generalizing lead with
  | nil =>
      rw [String.intercalate_nil, String.toList_empty, List.append_nil]
      exact entriesWithin_blank (List.forall_mem_append.mpr ⟨blank, behind⟩)
  | cons first items ih =>
      cases items with
      | nil =>
          rw [String.intercalate_singleton]
          exact entriesWithin_last blank behind (kept first (by simp))
      | cons second items =>
          have spaced : ∀ c ∈ [' '], Text.isBlank c = true := by simp [Text.isBlank]
          have later := ih spaced fun item member => kept item (by simp [member])
          have letters : lead ++ (String.intercalate ", " (first :: second :: items)).toList ++
                trail =
              lead ++ first.toList ++
                ',' :: ([' '] ++ (String.intercalate ", " (second :: items)).toList ++ trail) := by
            simp [String.intercalate_cons_cons]
          rw [letters, entriesWithin_cons blank (kept first (by simp)), later]
          rfl

theorem entries_listLiteral {items : List String} (kept : ∀ item ∈ items, IsEntry item.toList) :
    entries (listLiteral items) = items := by
  have inner : ((listLiteral items).toList.drop 1).dropLast =
      (String.intercalate ", " items).toList := by
    simp [listLiteral]
  have read := @entriesWithin_intercalate [] [] (by simp) (by simp) items kept
  rw [List.nil_append, List.append_nil] at read
  rw [entries, inner, read]
  simp [List.map_map, Function.comp_def]

/-! Objects, one entry to a line. -/

theorem layout_object (items : List String) :
    layout [.block "\x7b" "\x7d" ((items.map fun item => item ++ ",").map Step.line)] =
      String.intercalate "\n"
        ("\x7b" :: items.map (fun item => "  " ++ (item ++ ",")) ++ ["\x7d"]) := by
  have comma (item : String) : IsSolid (item ++ ",") := ⟨item.toList, ',', by simp, by decide⟩
  have body : AllSolid ((items.map fun item => item ++ ",").map Step.line) := by
    refine AllSolid.of_forall fun first member => ?_
    obtain ⟨text, inside, rfl⟩ := List.mem_map.mp member
    obtain ⟨item, -, rfl⟩ := List.mem_map.mp inside
    exact .line (comma item)
  have whole : (Step.block "\x7b" "\x7d"
      ((items.map fun item => item ++ ",").map Step.line)).Solid :=
    .block ⟨[], '\x7b', rfl, by decide⟩ ⟨[], '\x7d', rfl, by decide⟩ body
  have margin : marginOf standardIndent 1 = "  " := by decide
  have none : marginOf standardIndent 0 = "" := by decide
  have rows : linesOf standardIndent 1 ((items.map fun item => item ++ ",").map Step.line) =
      items.map fun item => "  " ++ (item ++ ",") := by
    rw [linesOf_map, List.flatMap_map, List.map_eq_flatMap]
    simp only [Step.lines, margin]
  rw [layout_of_solid (.cons whole .nil)]
  simp [-List.map_map, linesOf, Step.lines, none, rows]

theorem entriesWithin_lines {items : List String} (kept : ∀ item ∈ items, IsEntry item.toList) :
    entriesWithin ('\n' :: items.flatMap fun item => ("  " ++ (item ++ ",")).toList ++ ['\n']) =
      items.map String.toList := by
  induction items with
  | nil => exact @entriesWithin_blank ['\n'] (by simp [Text.isBlank])
  | cons first items ih =>
      have blank : ∀ c ∈ ['\n', ' ', ' '], Text.isBlank c = true := by simp [Text.isBlank]
      have letters : '\n' :: (first :: items).flatMap (fun item =>
            ("  " ++ (item ++ ",")).toList ++ ['\n']) =
          ['\n', ' ', ' '] ++ first.toList ++
            ',' :: '\n' :: items.flatMap fun item => ("  " ++ (item ++ ",")).toList ++ ['\n'] := by
        simp
      rw [letters, entriesWithin_cons blank (kept first (by simp)),
        ih fun item member => kept item (by simp [member])]
      rfl

theorem entries_layout_object {items : List String} (kept : ∀ item ∈ items, IsEntry item.toList) :
    entries (layout [.block "\x7b" "\x7d" ((items.map fun item => item ++ ",").map Step.line)]) =
      items := by
  have letters := toList_intercalate_lines
    ("\x7b" :: items.map fun item => "  " ++ (item ++ ",")) "\x7d"
  rw [ended, List.flatMap_cons, List.flatMap_map] at letters
  have inner : ((String.intercalate "\n" ("\x7b" :: items.map (fun item => "  " ++ (item ++ ",")) ++
        ["\x7d"])).toList.drop 1).dropLast =
      '\n' :: items.flatMap fun item => ("  " ++ (item ++ ",")).toList ++ ['\n'] := by
    rw [letters]
    exact List.dropLast_concat
  rw [layout_object, entries, inner, entriesWithin_lines kept]
  simp [List.map_map, Function.comp_def]

end ApiCompiler.Script
