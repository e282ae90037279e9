import ApiCompiler.Modules.ActionGroup
import ApiCompiler.Proofs.Derivation.Derived
import ApiCompiler.Proofs.Script.Lines
import ApiCompiler.Proofs.Script.Literals
import ApiCompiler.Proofs.Text.Segments

/-!
The text of an input's definition, and what can be told from it. Each value ends where its text says
so, and a member that is left out is told by the name of the next one, so equal texts show equal
members.
-/

namespace ApiCompiler.Modules

open Component Script ApiCompiler.Derivation

/-! What is written of an input. -/

/-- The value of a member of an input's definition. -/
inductive Shown
  | text (value : String)
  | truth (value : Bool)
  | choices (list : List Choice)
  | conversion (c : Conversion)

def choiceText (c : Choice) : String :=
  "\x7b label: " ++ stringLiteral c.label ++ ", value: " ++ stringLiteral c.value ++ " \x7d,"

def Shown.step (name : String) : Shown → Step
  | .text value => .member name (stringLiteral value)
  | .truth value => .member name (boolLiteral value)
  | .choices list =>
      .block (name ++ ": [") "]," (list.map fun c => .line (choiceText c))
  | .conversion c => .member name (conversionExpression c)

def offered? (input : Input) : Option (List Choice) :=
  input.choices.filter fun list => !list.isEmpty

/-- The members of an input's definition in their order, each with its value if it has one. -/
def slots (input : Input) : List (String × Option Shown) :=
  [("label", some (.text input.label)),
    ("type", some (.text input.type)),
    ("required", input.required.map .truth),
    ("default", input.default.map .text),
    ("model", (offered? input).map .choices),
    ("example", input.sample.map .text),
    ("clean", input.conversion.map .conversion),
    ("comments", (input.comments.bind String.description?).map .text)]

def present (slots : List (String × Option Shown)) : List (String × Shown) :=
  slots.flatMap fun (name, value) => value.toList.map fun shown => (name, shown)

def memberStep (member : String × Shown) : Step :=
  member.2.step member.1

theorem member?_map {α : Type} {name : String} {text : α → String} {shown : α → Shown}
    (writes : ∀ a, (shown a).step name = .member name (text a)) (value : Option α) :
    Step.member? name (value.map text) =
      ((value.map shown).toList.map fun shown => (name, shown)).map memberStep := by
  cases value with
  | none => rfl
  | some a => exact congrArg (· :: []) (writes a).symm

theorem inputSteps_eq (key : String) (input : Input) :
    inputSteps key input =
      .block (propertyKey key ++ ": \x7b") "\x7d," ((present (slots input)).map memberStep) := by
  have model : (if (input.choices.getD []).isEmpty then []
      else [Step.block "model: [" "],"
        ((input.choices.getD []).map fun c => .line (choiceText c))]) =
      (((offered? input).map Shown.choices).toList.map fun shown => ("model", shown)).map
        memberStep := by
    rw [offered?]
    rcases input.choices with _ | _ | ⟨first, rest⟩ <;> rfl
  rw [inputSteps]
  refine congrArg (Step.block _ _) ?_
  simp only [present, slots, List.flatMap_cons, List.flatMap_nil, List.map_append, List.map_nil]
  rw [← model, ← member?_map (fun _ => rfl), ← member?_map (fun _ => rfl),
    ← member?_map (fun _ => rfl), ← member?_map (fun _ => rfl), ← member?_map (fun _ => rfl)]
  simp only [List.append_assoc, List.append_nil]
  rfl

/-! The text of the members. -/

section Text

variable (indent : String) (level : Nat)

/-- The lines of the choices, one level further in. -/
def choiceRows (list : List Choice) : List Char :=
  list.flatMap fun c =>
    (marginOf indent (level + 1)).toList ++ (choiceText c).toList ++ ['\n']

/-- A value with all that follows it up to the next member. -/
def Shown.code : Shown → List Char
  | .text value => (stringLiteral value).toList ++ ",\n".toList
  | .truth value => (boolLiteral value).toList ++ ",\n".toList
  | .choices list =>
      "[\n".toList ++ choiceRows indent level list ++ (marginOf indent level).toList ++
        "],\n".toList
  | .conversion c => (conversionExpression c).toList ++ ",\n".toList

def row (member : String × Shown) : List Char :=
  (marginOf indent level).toList ++ member.1.toList ++ ": ".toList ++ member.2.code indent level

theorem ended_lines_memberStep (member : String × Shown) :
    ended ((memberStep member).lines indent level) = row indent level member := by
  obtain ⟨name, shown⟩ := member
  cases shown with
  | choices list =>
      simp [memberStep, Shown.step, Step.lines, linesOf_map, ended, row, Shown.code, choiceRows,
        List.flatMap_assoc]
  | _ => simp [memberStep, Shown.step, Step.member, Step.lines, ended, row, Shown.code]

end Text

/-! Values that end where their text says so. -/

theorem choiceText_append (c : Choice) (rest : List Char) :
    (choiceText c).toList ++ rest =
      "\x7b label: ".toList ++ ((stringLiteral c.label).toList ++ (", value: ".toList ++
        ((stringLiteral c.value).toList ++ (" \x7d,".toList ++ rest)))) := by
  simp [choiceText]

theorem choiceText_append_inj {c d : Choice} {rest more : List Char}
    (same : (choiceText c).toList ++ rest = (choiceText d).toList ++ more) :
    c = d ∧ rest = more := by
  rw [choiceText_append, choiceText_append] at same
  obtain ⟨label, same⟩ := stringLiteral_append_inj (List.append_cancel_left same)
  obtain ⟨value, same⟩ := stringLiteral_append_inj (List.append_cancel_left same)
  exact ⟨congrArg₂ Choice.mk label value, List.append_cancel_left same⟩

theorem boolLiteral_append_inj {b d : Bool} {rest more : List Char}
    (same : (boolLiteral b).toList ++ rest = (boolLiteral d).toList ++ more) :
    b = d ∧ rest = more := by
  cases b <;> cases d <;> simp [boolLiteral] at same ⊢
  · exact same
  · exact same

/-- A conversion whose name does not open its argument itself. -/
def HasPlainName (c : Conversion) : Prop :=
  '(' ∉ c.name.toList

theorem conversionExpression_append_inj {c d : Conversion} {rest more : List Char}
    (plain : HasPlainName c) (otherPlain : HasPlainName d)
    (same : (conversionExpression c).toList ++ ',' :: rest =
      (conversionExpression d).toList ++ ',' :: more) :
    c = d ∧ rest = more := by
  have letters (c : Conversion) (rest : List Char) : (conversionExpression c).toList ++ ',' :: rest =
      "(value) => util.types.".toList ++ (c.name.toList ++ '(' :: ("value)".toList ++
        ((if c.coalesce then " || undefined" else "").toList ++ ',' :: rest))) := by
    have opening : "(value)".toList = '(' :: "value)".toList := by rfl
    unfold conversionExpression
    simp only [String.toList_append, List.append_assoc, opening, List.cons_append]
  rw [letters, letters] at same
  obtain ⟨name, behind⟩ := Text.append_separator_inj plain otherPlain (List.append_cancel_left same)
  have tail := List.append_cancel_left behind
  rcases c with ⟨cName, _ | _⟩ <;> rcases d with ⟨dName, _ | _⟩ <;> simp at tail
  · exact ⟨congrArg (Conversion.mk · false) (String.toList_inj.mp name), tail⟩
  · exact ⟨congrArg (Conversion.mk · true) (String.toList_inj.mp name), tail⟩

/-- What may stand behind a member: the end of the definition, or another member. -/
def Follows (indent : String) (level : Nat) (rest : List Char) : Prop :=
  rest = (marginOf indent level).toList ++ "\x7d,".toList ∨
    ∃ more, rest = (marginOf indent (level + 1)).toList ++ more

/-- Another choice is not taken for the end of the choices, whatever the indentation is made of. -/
theorem choice_ne_closing {indent : String} {level : Nat} {text rest : List Char}
    (behind : Follows indent level rest) :
    (marginOf indent (level + 2)).toList ++ ("\x7b label: ".toList ++ text) ≠
      (marginOf indent (level + 1)).toList ++ ("],\n".toList ++ rest) := by
  intro same
  rw [marginOf_succ_eq_append, List.append_assoc] at same
  replace same := List.append_cancel_left same
  -- An indentation that could be the end of the choices would have to be followed by itself.
  have again {front tail : List Char} (opens : indent.toList = ']' :: ',' :: '\n' :: front)
      (led : rest = indent.toList ++ tail) : False := by
    rw [led, opens] at same
    have split : (front ++ ['\x7b', ' ', 'l']) ++ ("abel: ".toList ++ text) =
        (']' :: ',' :: '\n' :: front) ++ tail := by simpa using same
    have turned := (List.append_inj split (by simp)).1
    simpa using congrArg (List.count '\x7b') turned
  rcases shape : indent.toList with _ | ⟨a, _ | ⟨b, _ | ⟨c, front⟩⟩⟩
  · simp [shape] at same
  · simp [shape] at same
  · simp [shape] at same
  · obtain ⟨rfl, rfl, rfl, tail⟩ : a = ']' ∧ b = ',' ∧ c = '\n' ∧
        front ++ ("\x7b label: ".toList ++ text) = rest := by simpa [shape] using same
    rcases behind with ends | ⟨more, ends⟩
    · cases level with
      | zero =>
          have short := congrArg List.length (tail.trans ends)
          simp [toList_marginOf] at short
          omega
      | succ level =>
          rw [marginOf_succ, List.append_assoc] at ends
          exact again shape ends
    · rw [marginOf_succ, List.append_assoc] at ends
      exact again shape ends

theorem choiceRows_append_inj {indent : String} {level : Nat} {list other : List Choice}
    {rest more : List Char} (behind : Follows indent level rest)
    (otherBehind : Follows indent level more)
    (same : choiceRows indent (level + 1) list ++
        ((marginOf indent (level + 1)).toList ++ ("],\n".toList ++ rest)) =
      choiceRows indent (level + 1) other ++
        ((marginOf indent (level + 1)).toList ++ ("],\n".toList ++ more))) :
    list = other ∧ rest = more := by
  have next (c : Choice) (list : List Choice) (tail : List Char) :
      choiceRows indent (level + 1) (c :: list) ++ tail =
        (marginOf indent (level + 2)).toList ++
          ((choiceText c).toList ++ ('\n' :: (choiceRows indent (level + 1) list ++ tail))) := by
    simp [choiceRows]
  induction list generalizing other with
  | nil =>
      cases other with
      | nil => exact ⟨rfl, List.append_cancel_left (List.append_cancel_left same)⟩
      | cons d other =>
          rw [next, choiceText_append] at same
          exact absurd same.symm (choice_ne_closing behind)
  | cons c list ih =>
      cases other with
      | nil =>
          rw [next, choiceText_append] at same
          exact absurd same (choice_ne_closing otherBehind)
      | cons d other =>
          rw [next, next] at same
          obtain ⟨choice, later⟩ := choiceText_append_inj (List.append_cancel_left same)
          obtain ⟨choices, last⟩ := ih (List.cons.inj later).2
          exact ⟨congrArg₂ List.cons choice choices, last⟩

/-! Members that are told by their names and values. -/

def Shown.IsPlain : Shown → Prop
  | .conversion c => HasPlainName c
  | _ => True

def Shown.opening : Shown → Char
  | .text _ => '"'
  | .truth value => if value then 't' else 'f'
  | .choices _ => '['
  | .conversion _ => '('

theorem head?_code (indent : String) (level : Nat) (shown : Shown) (rest : List Char) :
    (shown.code indent level ++ rest).head? = some shown.opening := by
  cases shown with
  | text value => simp [Shown.code, Shown.opening, stringLiteral, String.quoted, Text.quote]
  | truth value => cases value <;> simp [Shown.code, Shown.opening, boolLiteral]
  | choices list => simp [Shown.code, Shown.opening]
  | conversion c =>
      unfold Shown.code conversionExpression
      simp [Shown.opening]

theorem code_append_inj {indent : String} {level : Nat} {shown other : Shown}
    {rest more : List Char} (plain : shown.IsPlain) (otherPlain : other.IsPlain)
    (behind : Follows indent level rest) (otherBehind : Follows indent level more)
    (same : shown.code indent (level + 1) ++ rest = other.code indent (level + 1) ++ more) :
    shown = other ∧ rest = more := by
  -- Values of two kinds begin with two characters, so the two kinds are the same.
  have opens : shown.opening = other.opening := by
    have heads := congrArg List.head? same
    rw [head?_code, head?_code] at heads
    exact Option.some.inj heads
  cases shown with
  | text value =>
      cases other with
      | text value' =>
          simp only [Shown.code, List.append_assoc] at same
          obtain ⟨rfl, last⟩ := stringLiteral_append_inj same
          exact ⟨rfl, List.append_cancel_left last⟩
      | truth value' => cases value' <;> simp [Shown.opening] at opens
      | choices list => simp [Shown.opening] at opens
      | conversion c => simp [Shown.opening] at opens
  | truth value =>
      cases other with
      | truth value' =>
          simp only [Shown.code, List.append_assoc] at same
          obtain ⟨rfl, last⟩ := boolLiteral_append_inj same
          exact ⟨rfl, List.append_cancel_left last⟩
      | text value' => cases value <;> simp [Shown.opening] at opens
      | choices list => cases value <;> simp [Shown.opening] at opens
      | conversion c => cases value <;> simp [Shown.opening] at opens
  | choices list =>
      cases other with
      | choices list' =>
          simp only [Shown.code, List.append_assoc] at same
          obtain ⟨rfl, last⟩ :=
            choiceRows_append_inj behind otherBehind (List.append_cancel_left same)
          exact ⟨rfl, last⟩
      | text value => simp [Shown.opening] at opens
      | truth value => cases value <;> simp [Shown.opening] at opens
      | conversion c => simp [Shown.opening] at opens
  | conversion c =>
      cases other with
      | conversion c' =>
          simp only [Shown.code, List.append_assoc] at same
          obtain ⟨rfl, last⟩ := conversionExpression_append_inj plain otherPlain same
          exact ⟨rfl, (List.cons.inj last).2⟩
      | text value => simp [Shown.opening] at opens
      | truth value => cases value <;> simp [Shown.opening] at opens
      | choices list => simp [Shown.opening] at opens

/-- A member whose name and value can be told from what stands behind them. -/
structure IsTold (member : String × Shown) : Prop where
  name : ':' ∉ member.1.toList
  value : member.2.IsPlain

theorem row_append_inj {indent : String} {level : Nat} {member other : String × Shown}
    {rest more : List Char} (told : IsTold member) (otherTold : IsTold other)
    (behind : Follows indent level rest) (otherBehind : Follows indent level more)
    (same : row indent (level + 1) member ++ rest = row indent (level + 1) other ++ more) :
    member = other ∧ rest = more := by
  have letters (member : String × Shown) (rest : List Char) : row indent (level + 1) member ++ rest =
      (marginOf indent (level + 1)).toList ++ (member.1.toList ++ ':' :: ' ' ::
        (member.2.code indent (level + 1) ++ rest)) := by
    simp [row]
  rw [letters, letters] at same
  obtain ⟨name, after⟩ := Text.append_separator_inj told.name otherTold.name
    (List.append_cancel_left same)
  obtain ⟨value, last⟩ :=
    code_append_inj told.value otherTold.value behind otherBehind (List.cons.inj after).2
  exact ⟨Prod.ext (String.toList_inj.mp name) value, last⟩

theorem follows_rows (indent : String) (level : Nat) (members : List (String × Shown)) :
    Follows indent level (members.flatMap (row indent (level + 1)) ++
      ((marginOf indent level).toList ++ "\x7d,".toList)) := by
  cases members with
  | nil => exact .inl rfl
  | cons member members =>
      right
      simp only [List.flatMap_cons, row, List.append_assoc]
      exact ⟨_, rfl⟩

theorem rows_inj {indent : String} {level : Nat} {members others : List (String × Shown)}
    (told : ∀ member ∈ members, IsTold member) (othersTold : ∀ member ∈ others, IsTold member)
    (same : members.flatMap (row indent (level + 1)) ++
        ((marginOf indent level).toList ++ "\x7d,".toList) =
      others.flatMap (row indent (level + 1)) ++
        ((marginOf indent level).toList ++ "\x7d,".toList)) :
    members = others := by
  have some (member : String × Shown) (rest : List Char) :
      row indent (level + 1) member ++ rest ≠ [] := by
    simp [row]
  induction members generalizing others with
  | nil =>
      cases others with
      | nil => rfl
      | cons other others =>
          have none : [] = (other :: others).flatMap (row indent (level + 1)) :=
            List.append_cancel_right same
          exact absurd none.symm (some other _)
  | cons member members ih =>
      obtain ⟨here, later⟩ := List.forall_mem_cons.mp told
      cases others with
      | nil =>
          have none : (member :: members).flatMap (row indent (level + 1)) = [] :=
            List.append_cancel_right same
          exact absurd none (some member _)
      | cons other others =>
          obtain ⟨otherHere, otherLater⟩ := List.forall_mem_cons.mp othersTold
          rw [List.flatMap_cons, List.flatMap_cons, List.append_assoc, List.append_assoc] at same
          obtain ⟨rfl, rest⟩ := row_append_inj here otherHere (follows_rows ..) (follows_rows ..) same
          exact congrArg (member :: ·) (ih later otherLater rest)

/-! Members that are left out. -/

theorem mem_of_mem_present {slots : List (String × Option Shown)} {member : String × Shown}
    (given : member ∈ present slots) : (member.1, some member.2) ∈ slots := by
  obtain ⟨⟨name, value⟩, inside, given⟩ := List.mem_flatMap.mp given
  obtain ⟨shown, here, rfl⟩ := List.mem_map.mp given
  rwa [Option.mem_toList.mp here] at inside

/-- Of members in a fixed order under different names, those with a value tell which have none. -/
theorem present_inj {slots others : List (String × Option Shown)}
    (names : slots.map Prod.fst = others.map Prod.fst) (distinct : (slots.map Prod.fst).Nodup)
    (same : present slots = present others) : slots = others := by
  have apart {name : String} {shown : Shown} {list : List (String × Option Shown)}
      {rest : List (String × Shown)} (absent : name ∉ list.map Prod.fst)
      (taken : present list = (name, shown) :: rest) : False := by
    have given : (name, shown) ∈ present list := by simp [taken]
    exact absent (List.mem_map.mpr ⟨_, mem_of_mem_present given, rfl⟩)
  induction slots generalizing others with
  | nil => exact (List.map_eq_nil_iff.mp names.symm).symm
  | cons slot slots ih =>
      cases others with
      | nil => cases names
      | cons other others =>
          obtain ⟨name, value⟩ := slot
          obtain ⟨name', value'⟩ := other
          obtain ⟨rfl, later⟩ : name = name' ∧ slots.map Prod.fst = others.map Prod.fst :=
            List.cons.inj names
          obtain ⟨absent, apartLater⟩ := List.nodup_cons.mp distinct
          have otherAbsent : name ∉ others.map Prod.fst := later ▸ absent
          cases value with
          | none =>
              cases value' with
              | none => exact congrArg _ (ih later apartLater same)
              | some shown => exact (apart absent same).elim
          | some shown =>
              cases value' with
              | none => exact (apart otherAbsent same.symm).elim
              | some shown' =>
                  obtain ⟨here, rest⟩ := List.cons.inj same
                  rw [ih later apartLater rest, (Prod.mk.inj here).2]

/-! Whole definitions. -/

theorem map_fst_slots (input : Input) :
    (slots input).map Prod.fst =
      ["label", "type", "required", "default", "model", "example", "clean", "comments"] := rfl

theorem isPlain_of_mem_slots {input : Input} (plain : ∀ c ∈ input.conversion, HasPlainName c) :
    ∀ slot ∈ slots input, ∀ shown ∈ slot.2, shown.IsPlain := by
  have other {α : Type} {shown : α → Shown} (each : ∀ a, (shown a).IsPlain)
      (value : Option α) : ∀ s ∈ value.map shown, s.IsPlain := by
    intro s given
    obtain ⟨a, -, rfl⟩ := Option.mem_map.mp given
    exact each a
  have text : ∀ value, (Shown.text value).IsPlain := fun _ => trivial
  have truth : ∀ value, (Shown.truth value).IsPlain := fun _ => trivial
  have choices : ∀ list, (Shown.choices list).IsPlain := fun _ => trivial
  simp only [slots, List.forall_mem_cons]
  refine ⟨other text (some _), other text (some _), other truth _, other text _, other choices _,
    other text _, ?_, other text _, nofun⟩
  intro s given
  obtain ⟨c, known, rfl⟩ := Option.mem_map.mp given
  exact plain c known

theorem isTold_of_mem_slots {input : Input} (plain : ∀ c ∈ input.conversion, HasPlainName c)
    {member : String × Shown} (given : member ∈ present (slots input)) : IsTold member := by
  have inside := mem_of_mem_present given
  have named := List.mem_map_of_mem (f := Prod.fst) inside
  rw [map_fst_slots] at named
  have names : ∀ name ∈ ["label", "type", "required", "default", "model", "example", "clean",
      "comments"], ':' ∉ name.toList := by decide
  exact ⟨names _ named, isPlain_of_mem_slots plain _ inside _ rfl⟩

theorem solid_memberStep (member : String × Shown) : (memberStep member).Solid := by
  have comma : IsSolid "," := ⟨[], ',', rfl, by decide⟩
  have plain (name value : String) : (Step.member name value).Solid := .line (comma.append _)
  obtain ⟨name, shown⟩ := member
  cases shown with
  | choices list =>
      refine .block ?_ ?_ (AllSolid.of_forall fun step inside => ?_)
      · exact IsSolid.append ⟨[':', ' '], '[', rfl, by decide⟩ name
      · exact ⟨[']'], ',', rfl, by decide⟩
      · obtain ⟨c, -, rfl⟩ := List.mem_map.mp inside
        exact .line (IsSolid.append ⟨[' ', '\x7d'], ',', rfl, by decide⟩ _)
  | text value => exact plain ..
  | truth value => exact plain ..
  | conversion c => exact plain ..

theorem solid_slots (input : Input) : AllSolid ((present (slots input)).map memberStep) := by
  refine AllSolid.of_forall fun step inside => ?_
  obtain ⟨member, -, rfl⟩ := List.mem_map.mp inside
  exact solid_memberStep member

theorem isSolid_opener (key : String) : IsSolid (propertyKey key ++ ": \x7b") :=
  IsSolid.append ⟨[':', ' '], '\x7b', rfl, by decide⟩ _

theorem isSolid_closer : IsSolid "\x7d," :=
  ⟨['\x7d'], ',', rfl, by decide⟩

theorem solid_inputSteps (key : String) (input : Input) : (inputSteps key input).Solid := by
  rw [inputSteps_eq]
  exact .block (isSolid_opener key) isSolid_closer (solid_slots input)

theorem toList_added_inputSteps (page : Page) (key : String) (input : Input) :
    (page.added (inputSteps key input)).toList =
      (page.pending.getD page.margin).toList ++ ((propertyKey key).toList ++ ':' :: ' ' :: '\x7b' ::
        '\n' :: ((present (slots input)).flatMap (row page.indent (page.level + 1)) ++
          ((marginOf page.indent page.level).toList ++ "\x7d,".toList))) := by
  have rows : ended (linesOf page.indent (page.level + 1) ((present (slots input)).map memberStep)) =
      (present (slots input)).flatMap (row page.indent (page.level + 1)) := by
    rw [linesOf_map, ended_flatMap]
    simp only [ended_lines_memberStep]
  rw [inputSteps_eq, Page.added_block (isSolid_opener key) isSolid_closer (solid_slots input),
    toList_intercalate_lines, ended, List.flatMap_cons, ← ended, rows]
  simp [Page.margin, marginOf]

theorem slots_eq_of_added_eq {page : Page} {key key' : String} {input input' : Input}
    (plain : ∀ c ∈ input.conversion, HasPlainName c)
    (plain' : ∀ c ∈ input'.conversion, HasPlainName c)
    (same : page.added (inputSteps key input) = page.added (inputSteps key' input')) :
    key = key' ∧ slots input = slots input' := by
  have letters := congrArg String.toList same
  rw [toList_added_inputSteps, toList_added_inputSteps] at letters
  obtain ⟨name, after⟩ := propertyKey_append_inj (List.append_cancel_left letters)
  have rows := (List.cons.inj (List.cons.inj (List.cons.inj after).2).2).2
  have members := rows_inj (fun _ given => isTold_of_mem_slots plain given)
    (fun _ given => isTold_of_mem_slots plain' given) rows
  exact ⟨name, present_inj rfl (by rw [map_fst_slots]; decide) members⟩

/-- What a step writes depends on the page only by its level, its indentation and its last line. -/
theorem added_eq_of_alike {page other : Page} (level : page.level = other.level)
    (indent : page.indent = other.indent) (begun : page.pending = other.pending) (key : String)
    (input : Input) :
    page.added (inputSteps key input) = other.added (inputSteps key input) := by
  have margin : page.margin = other.margin := by rw [Page.margin, Page.margin, level, indent]
  rw [← String.toList_inj, toList_added_inputSteps, toList_added_inputSteps, level, indent, begun,
    margin]

/-! Derived inputs. -/

theorem hasPlainName_of_isDerived {input : Input} (derived : IsDerived input) :
    ∀ c ∈ input.conversion, HasPlainName c := by
  cases derived with
  | connection => exact nofun
  | source built =>
      simp only [buildInput, bind_eq_ok] at built
      obtain ⟨_, -, _, -, _, -, same⟩ := built
      cases same
      rintro c ⟨⟩
      rw [HasPlainName, inputType]
      split <;> decide

theorem offered?_of_isDerived {input : Input} (derived : IsDerived input) :
    offered? input = input.choices := by
  cases derived with
  | connection => rfl
  | source built =>
      simp only [buildInput, bind_eq_ok] at built
      obtain ⟨_, -, _, -, choices, -, same⟩ := built
      cases same
      simp [offered?, Input.tidy]

/--
What is written of a derived input tells its key and all of the input that a user meets: an absent
field, an empty text and the text of another field are different, whatever the texts hold.
-/
theorem inputSteps_tell {page other : Page} {key key' : String} {input input' : Input}
    (derived : IsDerived input) (derived' : IsDerived input') (level : page.level = other.level)
    (indent : page.indent = other.indent) (begun : page.pending = other.pending)
    (same : page.added (inputSteps key input) = other.added (inputSteps key' input')) :
    key = key' ∧ input.label = input'.label ∧ input.type = input'.type ∧
      input.required = input'.required ∧ input.default = input'.default ∧
      input.sample = input'.sample ∧ input.choices = input'.choices ∧
      input.conversion = input'.conversion ∧
      input.comments.bind String.description? = input'.comments.bind String.description? := by
  rw [← added_eq_of_alike level indent begun] at same
  obtain ⟨name, members⟩ := slots_eq_of_added_eq (hasPlainName_of_isDerived derived)
    (hasPlainName_of_isDerived derived') same
  have texts : Function.Injective (Option.map Shown.text) :=
    Option.map_injective fun _ _ => Shown.text.inj
  have truths : Function.Injective (Option.map Shown.truth) :=
    Option.map_injective fun _ _ => Shown.truth.inj
  have lists : Function.Injective (Option.map Shown.choices) :=
    Option.map_injective fun _ _ => Shown.choices.inj
  have conversions : Function.Injective (Option.map Shown.conversion) :=
    Option.map_injective fun _ _ => Shown.conversion.inj
  simp only [slots, List.cons.injEq, Prod.mk.injEq, Option.some.injEq, Shown.text.injEq, true_and,
    and_true, texts.eq_iff, truths.eq_iff, lists.eq_iff, conversions.eq_iff,
    offered?_of_isDerived derived, offered?_of_isDerived derived'] at members
  obtain ⟨label, type, required, default, choices, sample, conversion, comments⟩ := members
  exact ⟨name, label, type, required, default, sample, choices, conversion, comments⟩

/-- A required parameter without a schema, under a name with the words "user" and "id". -/
def userInput (wireName comments : String) : Input :=
  { wireName
    key := "userId"
    label := "User Id"
    type := "string"
    required := some true
    comments := some comments
    conversion := some ⟨"toString", true⟩ }

/-- The name sent and what follows the first sentence of the comments are not told. -/
theorem inputSteps_tell_userInput :
    IsDerived (userInput "user_id" "The user. Must exist") ∧
      IsDerived (userInput "userId" "The user!") ∧
      (Page.empty standardIndent).added
          (inputSteps "userId" (userInput "user_id" "The user. Must exist")) =
        (⟨standardIndent, 0, #["// inputs"], none⟩ : Page).added
          (inputSteps "userId" (userInput "userId" "The user!")) ∧
      (userInput "user_id" "The user. Must exist").comments.bind String.description? =
        (userInput "userId" "The user!").comments.bind String.description? ∧
      userInput "user_id" "The user. Must exist" ≠ userInput "userId" "The user!" := by
  have derived : IsDerived (userInput "user_id" "The user. Must exist") := by
    refine @IsDerived.source
      ⟨"user_id", none, "GET /users", some true, some "The user. Must exist", none⟩ [] ["userId"] _ ?_
    rfl
  have derived' : IsDerived (userInput "userId" "The user!") := by
    refine @IsDerived.source ⟨"userId", none, "GET /users", some true, some "The user!", none⟩ []
      ["userId"] _ ?_
    rfl
  have sentence : "The user. Must exist".description? = "The user!".description? := by decide
  have steps : inputSteps "userId" (userInput "user_id" "The user. Must exist") =
      inputSteps "userId" (userInput "userId" "The user!") := by
    simp only [inputSteps_eq, slots, offered?, userInput, Option.bind_some, sentence]
  have same : (Page.empty standardIndent).added
        (inputSteps "userId" (userInput "user_id" "The user. Must exist")) =
      (⟨standardIndent, 0, #["// inputs"], none⟩ : Page).added
        (inputSteps "userId" (userInput "userId" "The user!")) := by
    rw [steps]
    refine added_eq_of_alike ?_ ?_ ?_ _ _ <;> rfl
  obtain ⟨-, -, -, -, -, -, -, -, comments⟩ :=
    @inputSteps_tell (.empty standardIndent) ⟨standardIndent, 0, #["// inputs"], none⟩ _ _ _ _
      derived derived' rfl rfl rfl same
  exact ⟨derived, derived', same, comments, by decide⟩

end ApiCompiler.Modules
