import Mathlib.Algebra.Group.Nat.Defs
import Mathlib.Data.List.Induction
import ApiCompiler.Json.Reader
import ApiCompiler.Json.Writer
import ApiCompiler.Proofs.World.Failing

/-!
JSON values. What is read from a JSON text is one, and every one can be written and shown.
-/

namespace ApiCompiler

/-- The scalars of JSON: no dates or times, and of integers those that a reader accepts. -/
def Scalar.IsJson : Scalar → Prop
  | .int n => n.natAbs < Json.digitBound
  | .null | .bool _ | .float _ | .text _ => True
  | .date _ | .time _ | .timestamp _ => False

/-- Lists and objects of such scalars, the names being texts. -/
inductive Value.IsJson : Value → Prop
  | scalar {s : Scalar} (scalar : s.IsJson) : IsJson (.scalar s)
  | list {items : List Value} (each : ∀ item ∈ items, IsJson item) : IsJson (.list items)
  | object {members : Members Value} (named : ∀ member ∈ members, ∃ name, member.1 = .text name)
      (each : ∀ member ∈ members, IsJson member.2) : IsJson (.object members)

namespace Json

/-! Writing. -/

theorem intText_ok {n : Int} (small : n.natAbs < digitBound) : ∃ text, intText n = .ok text := by
  rw [intText, if_neg (Nat.not_le.mpr small)]
  exact ⟨_, rfl⟩

theorem itemTexts_ok {items : List Value}
    (each : ∀ item ∈ items, ∃ text, valueText item = .ok text) :
    ∃ texts, itemTexts items = .ok texts := by
  induction items with
  | nil => exact ⟨[], rfl⟩
  | cons item items ih =>
      obtain ⟨first, others⟩ := List.forall_mem_cons.mp each
      obtain ⟨text, here⟩ := first
      obtain ⟨texts, later⟩ := ih others
      refine ⟨text :: texts, ?_⟩
      rw [itemTexts, here, later]
      rfl

theorem memberTexts_ok {members : Members Value}
    (named : ∀ member ∈ members, ∃ name, member.1 = .text name)
    (each : ∀ member ∈ members, ∃ text, valueText member.2 = .ok text) :
    ∃ texts, memberTexts members = .ok texts := by
  induction members with
  | nil => exact ⟨[], rfl⟩
  | cons member members ih =>
      obtain ⟨key, value⟩ := member
      obtain ⟨⟨name, rfl⟩, names⟩ := List.forall_mem_cons.mp named
      obtain ⟨⟨text, here⟩, others⟩ := List.forall_mem_cons.mp each
      obtain ⟨texts, later⟩ := ih names others
      refine ⟨(Text.quoteAscii name.toList ++ ':' :: ' ' :: text) :: texts, ?_⟩
      rw [memberTexts, here, later]
      rfl

theorem scalarText_ok {s : Scalar} (json : s.IsJson) : ∃ text, scalarText s = .ok text := by
  cases s with
  | int n => exact intText_ok json
  | null | bool _ | float _ | text _ => exact ⟨_, rfl⟩
  | date _ | time _ | timestamp _ => exact json.elim

theorem valueText_ok {value : Value} (json : value.IsJson) :
    ∃ text, valueText value = .ok text := by
  induction json with
  | scalar json =>
      rw [valueText]
      exact scalarText_ok json
  | list _ ih =>
      obtain ⟨texts, written⟩ := itemTexts_ok ih
      rw [valueText, written]
      exact ⟨_, rfl⟩
  | object named _ ih =>
      obtain ⟨texts, written⟩ := memberTexts_ok named ih
      rw [valueText, written]
      exact ⟨_, rfl⟩

theorem write_ok {value : Value} (json : value.IsJson) : ∃ text, write value = .ok text := by
  obtain ⟨text, written⟩ := valueText_ok json
  rw [write, written]
  exact ⟨_, rfl⟩

end Json

theorem Value.IsJson.display {value : Value} (json : value.IsJson) :
    ∃ text, value.display = .ok text := by
  have written := Json.write_ok json
  cases json with
  | @scalar s json =>
      cases s with
      | int n =>
          obtain ⟨text, shown⟩ := Json.intText_ok json
          rw [Value.display, shown]
          exact ⟨_, rfl⟩
      | bool _ | float _ | text _ => exact ⟨_, rfl⟩
      | null | date _ | time _ | timestamp _ => exact written
  | list _ => exact written
  | object _ _ => exact written

/-! Reading. -/

namespace Text

theorem lt_ten_of_digit? {c : Char} {value : Nat} (digit : digit? c = some value) : value < 10 := by
  obtain ⟨first, found, rfl⟩ := Option.map_eq_some_iff.mp digit
  have within := List.find?_some found
  simp only [Bool.and_eq_true, decide_eq_true_eq] at within
  omega

theorem ofDigits_lt {base : Nat} {digits : List Nat} (small : ∀ digit ∈ digits, digit < base) :
    ofDigits base digits < base ^ digits.length := by
  induction digits using List.reverseRecOn with
  | nil => simp
  | append_singleton digits digit ih =>
      obtain ⟨before, last⟩ := List.forall_mem_append.mp small
      have below : ofDigits base digits + 1 ≤ base ^ digits.length := ih before
      rw [ofDigits_concat, List.length_append, List.length_singleton, Nat.pow_succ]
      calc ofDigits base digits * base + digit
        _ < ofDigits base digits * base + base := Nat.add_lt_add_left (last digit (by simp)) _
        _ = (ofDigits base digits + 1) * base := (Nat.succ_mul _ _).symm
        _ ≤ base ^ digits.length * base := Nat.mul_le_mul_right base below

theorem ofDigits_digit?_lt {text : List Char} {limit : Nat} (few : text.length ≤ limit) :
    ofDigits 10 (text.filterMap digit?) < 10 ^ limit := by
  have small : ∀ digit ∈ text.filterMap digit?, digit < 10 := by
    intro digit member
    obtain ⟨c, -, found⟩ := List.mem_filterMap.mp member
    exact lt_ten_of_digit? found
  have short : (text.filterMap digit?).length ≤ limit :=
    Nat.le_trans (List.length_filterMap_le digit? text) few
  exact Nat.lt_of_lt_of_le (ofDigits_lt small) (Nat.pow_le_pow_right (by decide) short)

end Text

namespace Json

theorem isJson_of_readWord? {text rest : List Char} {value : Value}
    (found : readWord? text = some (value, rest)) : value.IsJson := by
  obtain ⟨⟨word, result⟩, inside, found⟩ := List.exists_of_findSome?_eq_some found
  obtain ⟨_, -, same⟩ := Option.map_eq_some_iff.mp found
  cases same
  have scalars : ∀ pair ∈ words, pair.2.IsJson := by
    simp only [words, List.forall_mem_cons]
    exact ⟨.scalar trivial, .scalar trivial, .scalar trivial, .scalar trivial, .scalar trivial,
      .scalar trivial, nofun⟩
  exact scalars _ inside

theorem natAbs_lt_of_few {digits : List Char} (few : ¬Text.digitLimit < digits.length) :
    (Text.ofDigits 10 (digits.filterMap Text.digit?) : Int).natAbs < digitBound := by
  unfold digitBound
  -- As a numeral the limit would make the bound a number of so many digits.
  generalize Text.digitLimit = limit at few ⊢
  exact Text.ofDigits_digit?_lt (Nat.not_lt.mp few)

theorem isJson_of_readNumber {text rest : List Char} {value : Value}
    (found : readNumber text = .ok (value, rest)) : value.IsJson := by
  unfold readNumber at found
  repeat' split at found
  -- Each way through ends in a fault or in a number.
  all_goals cases found
  · rename_i few _ _
    exact .scalar (natAbs_lt_of_few few)
  · rename_i few _ _
    refine .scalar ?_
    rw [Scalar.IsJson, Int.natAbs_neg]
    exact natAbs_lt_of_few few
  · exact .scalar trivial

def IsMember (member : Scalar × Value) : Prop :=
  (∃ name, member.1 = .text name) ∧ member.2.IsJson

theorem isMember_put {name : String} {value : Value} {members : Members Value}
    (known : ∀ member ∈ members, IsMember member) (json : value.IsJson) :
    ∀ member ∈ members.put (.text name) value, IsMember member := by
  induction members with
  | nil => exact List.forall_mem_singleton.mpr ⟨⟨name, rfl⟩, json⟩
  | cons member members ih =>
      obtain ⟨first, others⟩ := List.forall_mem_cons.mp known
      rw [Members.put]
      split
      · exact List.forall_mem_cons.mpr ⟨⟨first.1, json⟩, others⟩
      · exact List.forall_mem_cons.mpr ⟨first, ih others⟩

theorem isMember_override {base own : Members Value} (known : ∀ member ∈ base, IsMember member)
    (each : ∀ member ∈ own, IsMember member) : ∀ member ∈ base.override own, IsMember member := by
  induction own generalizing base with
  | nil => exact known
  | cons member own ih =>
      obtain ⟨key, value⟩ := member
      obtain ⟨⟨⟨name, rfl⟩, json⟩, others⟩ := List.forall_mem_cons.mp each
      exact ih (isMember_put known json) others

theorem isJson_ofList {members : Members Value} (each : ∀ member ∈ members, IsMember member) :
    (Value.object (Members.ofList members)).IsJson := by
  have kept := @isMember_override [] members nofun each
  exact .object (fun member inside => (kept member inside).1)
    fun member inside => (kept member inside).2

/-- With so much fuel, whatever is read is a JSON value. -/
structure ReadsJson (fuel : Nat) : Prop where
  value : ∀ {text value rest}, readValue fuel text = .ok (value, rest) → value.IsJson
  members : ∀ {text members rest}, readMembers fuel text = .ok (members, rest) →
    ∀ member ∈ members, IsMember member
  items : ∀ {text items rest}, readItems fuel text = .ok (items, rest) →
    ∀ item ∈ items, item.IsJson

section Steps

variable {fuel : Nat} (reads : ReadsJson fuel)
include reads

theorem ReadsJson.nextValue {text rest : List Char} {value : Value}
    (found : readValue (fuel + 1) text = .ok (value, rest)) : value.IsJson := by
  unfold readValue at found
  split at found
  · obtain ⟨_, -, found⟩ := bind_eq_ok.mp found
    cases found
    exact .scalar trivial
  · split at found
    · cases found
      exact .object nofun nofun
    · obtain ⟨⟨inside, _⟩, read, found⟩ := bind_eq_ok.mp found
      cases found
      exact isJson_ofList (reads.members read)
  · split at found
    · cases found
      exact .list nofun
    · obtain ⟨⟨inside, _⟩, read, found⟩ := bind_eq_ok.mp found
      cases found
      exact .list (reads.items read)
  · split at found
    · rename_i word
      cases found
      exact isJson_of_readWord? word
    · exact isJson_of_readNumber found

theorem ReadsJson.nextMembers {text rest : List Char} {members : Members Value}
    (found : readMembers (fuel + 1) text = .ok (members, rest)) :
    ∀ member ∈ members, IsMember member := by
  unfold readMembers at found
  split at found
  · obtain ⟨⟨name, _⟩, -, found⟩ := bind_eq_ok.mp found
    dsimp only at found
    split at found
    · obtain ⟨⟨first, _⟩, read, found⟩ := bind_eq_ok.mp found
      dsimp only at found
      split at found
      · cases found
        exact List.forall_mem_singleton.mpr ⟨⟨name, rfl⟩, reads.value read⟩
      · obtain ⟨⟨others, _⟩, later, found⟩ := bind_eq_ok.mp found
        cases found
        exact List.forall_mem_cons.mpr ⟨⟨⟨name, rfl⟩, reads.value read⟩, reads.members later⟩
      · cases found
    · cases found
  · cases found

theorem ReadsJson.nextItems {text rest : List Char} {items : List Value}
    (found : readItems (fuel + 1) text = .ok (items, rest)) : ∀ item ∈ items, item.IsJson := by
  unfold readItems at found
  obtain ⟨⟨first, _⟩, read, found⟩ := bind_eq_ok.mp found
  dsimp only at found
  split at found
  · cases found
    exact List.forall_mem_singleton.mpr (reads.value read)
  · obtain ⟨⟨others, _⟩, later, found⟩ := bind_eq_ok.mp found
    cases found
    exact List.forall_mem_cons.mpr ⟨reads.value read, reads.items later⟩
  · cases found

end Steps

theorem readsJson : (fuel : Nat) → ReadsJson fuel
  | 0 => ⟨nofun, nofun, nofun⟩
  | fuel + 1 =>
      have reads := readsJson fuel
      ⟨reads.nextValue, reads.nextMembers, reads.nextItems⟩

theorem isJson_of_read {text : String} {value : Value} (found : read text = .ok value) :
    value.IsJson := by
  unfold read at found
  dsimp only at found
  split at found
  · rename_i result rest read
    split at found
    · cases found
      split at read
      · cases read
      · exact (readsJson _).value read
    · cases found
  · cases found
  · cases found

end Json

end ApiCompiler
