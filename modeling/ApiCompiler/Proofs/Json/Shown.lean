import Mathlib.Data.List.Forall2
import ApiCompiler.Json.Writer
import ApiCompiler.Proofs.Json.Quoted
import ApiCompiler.Proofs.World.Failing

/-!
What a value shows: a text itself, a truth value its word, a number its digits, and anything else
its JSON text, as the grammar of JSON has it.
-/

namespace ApiCompiler

namespace Json

/-- A text may be quoted in any way in which it is read back. -/
inductive IsScalarText : Scalar → List Char → Prop
  | null : IsScalarText .null "null".toList
  | yes : IsScalarText (.bool true) "true".toList
  | no : IsScalarText (.bool false) "false".toList
  | int (n : Int) : IsScalarText (.int n) (toString n).toList
  | finite {x : Binary64} (number : x.isNaN = false) (finite : x.isInfinite = false) :
      IsScalarText (.float x) x.text
  | nan {x : Binary64} (nan : x.isNaN = true) : IsScalarText (.float x) "NaN".toList
  | infinity {x : Binary64} (infinite : x.isInfinite = true) (positive : x.isNegative = false) :
      IsScalarText (.float x) "Infinity".toList
  | negativeInfinity {x : Binary64} (infinite : x.isInfinite = true)
      (negative : x.isNegative = true) : IsScalarText (.float x) "-Infinity".toList
  | text {s : String} {quoted : List Char} (back : read (String.ofList quoted) = .ok (.text s)) :
      IsScalarText (.text s) quoted

/-- Names are texts, so that any other scalar stands in quotes as a name. -/
inductive IsNameText : Scalar → List Char → Prop
  | text {s : String} {quoted : List Char} (quotes : IsScalarText (.text s) quoted) :
      IsNameText (.text s) quoted
  | other {s : Scalar} {text : List Char} (notText : ∀ t, s ≠ .text t)
      (plain : IsScalarText s text) : IsNameText s ('"' :: text ++ ['"'])

mutual
/-- Items and members stand in order, with a comma and a blank between two of them. -/
inductive IsText : Value → List Char → Prop
  | scalar {s : Scalar} {text : List Char} (scalar : IsScalarText s text) : IsText (.scalar s) text
  | list {items : List Value} {texts : List (List Char)} (each : AreItems items texts) :
      IsText (.list items) ('[' :: Text.joinWith [',', ' '] texts ++ [']'])
  | object {members : List (Scalar × Value)} {texts : List (List Char)}
      (each : AreMembers members texts) :
      IsText (.object members) ('\x7b' :: Text.joinWith [',', ' '] texts ++ ['\x7d'])

inductive AreItems : List Value → List (List Char) → Prop
  | nil : AreItems [] []
  | cons {item : Value} {text : List Char} {items : List Value} {texts : List (List Char)}
      (first : IsText item text) (rest : AreItems items texts) :
      AreItems (item :: items) (text :: texts)

inductive AreMembers : List (Scalar × Value) → List (List Char) → Prop
  | nil : AreMembers [] []
  | cons {name : Scalar} {nameText : List Char} {value : Value} {text : List Char}
      {members : List (Scalar × Value)} {texts : List (List Char)}
      (named : IsNameText name nameText) (first : IsText value text)
      (rest : AreMembers members texts) :
      AreMembers ((name, value) :: members) ((nameText ++ ':' :: ' ' :: text) :: texts)
end

theorem intText_eq_ok {n : Int} {text : List Char} (written : intText n = .ok text) :
    text = (toString n).toList := by
  unfold intText at written
  split at written
  · cases written
  · exact (Except.ok.inj written).symm

theorem isScalarText_floatText (x : Binary64) : IsScalarText (.float x) (floatText x) := by
  unfold floatText
  split
  · rename_i nan
    exact .nan nan
  · rename_i number
    split
    · rename_i infinite
      split
      · rename_i negative
        exact .negativeInfinity infinite negative
      · rename_i positive
        exact .infinity infinite (Bool.eq_false_iff.mpr positive)
    · rename_i finite
      exact .finite (Bool.eq_false_iff.mpr number) (Bool.eq_false_iff.mpr finite)

theorem isScalarText_quoteAscii (s : String) :
    IsScalarText (.text s) (Text.quoteAscii s.toList) :=
  .text (read_quotedAscii s)

theorem isScalarText {s : Scalar} {text : List Char} (written : scalarText s = .ok text) :
    IsScalarText s text := by
  cases s with
  | null =>
      cases written
      exact .null
  | bool b =>
      cases written
      cases b
      · exact .no
      · exact .yes
  | int n =>
      cases intText_eq_ok written
      exact .int n
  | float x =>
      cases written
      exact isScalarText_floatText x
  | text s =>
      cases written
      exact isScalarText_quoteAscii s
  | date _ | time _ | timestamp _ => cases written

theorem isNameText {s : Scalar} {text : List Char} (written : nameText s = .ok text) :
    IsNameText s text := by
  cases s with
  | null =>
      cases written
      exact .other (by rintro t ⟨⟩) .null
  | bool b =>
      cases written
      cases b
      · exact .other (by rintro t ⟨⟩) .no
      · exact .other (by rintro t ⟨⟩) .yes
  | int n =>
      obtain ⟨digits, decimal, same⟩ := bind_eq_ok.mp written
      cases same
      cases intText_eq_ok decimal
      exact .other (by rintro t ⟨⟩) (.int n)
  | float x =>
      cases written
      exact .other (by rintro t ⟨⟩) (isScalarText_floatText x)
  | text s =>
      cases written
      exact .text (isScalarText_quoteAscii s)
  | date _ | time _ | timestamp _ => cases written

mutual
theorem isText : ∀ {value : Value} {text : List Char}, valueText value = .ok text →
    IsText value text
  | .scalar _, _, written => .scalar (isScalarText written)
  | .list items, _, written => by
      obtain ⟨texts, each, same⟩ := bind_eq_ok.mp written
      cases same
      exact .list (areItems each)
  | .object members, _, written => by
      obtain ⟨texts, each, same⟩ := bind_eq_ok.mp written
      cases same
      exact .object (areMembers each)

theorem areItems : ∀ {items : List Value} {texts : List (List Char)},
    itemTexts items = .ok texts → AreItems items texts
  | [], _, written => by
      cases written
      exact .nil
  | item :: items, _, written => by
      obtain ⟨text, first, written⟩ := bind_eq_ok.mp written
      obtain ⟨texts, rest, same⟩ := bind_eq_ok.mp written
      cases same
      exact .cons (isText first) (areItems rest)

theorem areMembers : ∀ {members : List (Scalar × Value)} {texts : List (List Char)},
    memberTexts members = .ok texts → AreMembers members texts
  | [], _, written => by
      cases written
      exact .nil
  | (name, value) :: members, _, written => by
      obtain ⟨nameText, named, written⟩ := bind_eq_ok.mp written
      obtain ⟨text, first, written⟩ := bind_eq_ok.mp written
      obtain ⟨texts, rest, same⟩ := bind_eq_ok.mp written
      cases same
      exact .cons (isNameText named) (isText first) (areMembers rest)
end

end Json

/-- The text that stands for a value where a reader sees it. -/
inductive Value.Shows : Value → String → Prop
  | text (s : String) : Shows (.scalar (.text s)) s
  | yes : Shows (.scalar (.bool true)) "true"
  | no : Shows (.scalar (.bool false)) "false"
  | int (n : Int) : Shows (.scalar (.int n)) (toString n)
  | float (x : Binary64) : Shows (.scalar (.float x)) (String.ofList x.text)
  | null : Shows (.scalar .null) "null"
  | list {items : List Value} {text : String} (json : Json.IsText (.list items) text.toList) :
      Shows (.list items) text
  | object {members : List (Scalar × Value)} {text : String}
      (json : Json.IsText (.object members) text.toList) : Shows (.object members) text

theorem Json.isText_of_write {value : Value} {text : String} (written : write value = .ok text) :
    IsText value text.toList := by
  obtain ⟨quoted, plain, rfl⟩ := map_eq_ok.mp written
  rw [String.toList_ofList]
  exact isText plain

theorem Value.shows_of_display {value : Value} {text : String} (shown : value.display = .ok text) :
    value.Shows text := by
  cases value with
  | list items => exact .list (Json.isText_of_write shown)
  | object members => exact .object (Json.isText_of_write shown)
  | scalar s =>
      cases s with
      | null =>
          cases shown
          exact .null
      | bool b =>
          cases shown
          cases b
          · exact .no
          · exact .yes
      | int n =>
          obtain ⟨digits, decimal, rfl⟩ := map_eq_ok.mp shown
          cases Json.intText_eq_ok decimal
          rw [String.ofList_toList]
          exact .int n
      | float x =>
          cases shown
          exact .float x
      | text s =>
          cases shown
          exact .text _
      | date _ | time _ | timestamp _ => cases shown

end ApiCompiler
