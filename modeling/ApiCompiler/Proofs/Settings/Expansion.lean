import ApiCompiler.Proofs.Settings.Variables
import ApiCompiler.Proofs.World.Failing
import ApiCompiler.Settings.Source

/-!
Variables in a whole tree of settings: what a tree becomes, and which variable is missed first.
-/

namespace ApiCompiler.Variables

def textsOfScalar : Scalar → List String
  | .text text => [text]
  | _ => []

mutual
/-- The texts of a tree in the order in which they are met; names of members are none of them. -/
def texts : Value → List String
  | .scalar s => textsOfScalar s
  | .list items => textsOfItems items
  | .object members => textsOfMembers members

def textsOfItems : List Value → List String
  | [] => []
  | item :: items => texts item ++ textsOfItems items

def textsOfMembers : List (Scalar × Value) → List String
  | [] => []
  | (_, value) :: members => texts value ++ textsOfMembers members
end

section Trees

variable (environment : Environment)

mutual
/-- The same tree, but for its texts: in each the references are replaced. -/
inductive Expands : Value → Value → Prop
  | text {text result : String} (substituted : Substituted environment text result) :
      Expands (.scalar (.text text)) (.scalar (.text result))
  | other (s : Scalar) (other : ∀ text, s ≠ .text text) : Expands (.scalar s) (.scalar s)
  | list {items items' : List Value} (each : ExpandsItems items items') :
      Expands (.list items) (.list items')
  | object {members members' : List (Scalar × Value)} (each : ExpandsMembers members members') :
      Expands (.object members) (.object members')

inductive ExpandsItems : List Value → List Value → Prop
  | nil : ExpandsItems [] []
  | cons {item item' : Value} {items items' : List Value} (first : Expands item item')
      (rest : ExpandsItems items items') : ExpandsItems (item :: items) (item' :: items')

inductive ExpandsMembers : List (Scalar × Value) → List (Scalar × Value) → Prop
  | nil : ExpandsMembers [] []
  | cons {name : Scalar} {value value' : Value} {members members' : List (Scalar × Value)}
      (first : Expands value value') (rest : ExpandsMembers members members') :
      ExpandsMembers ((name, value) :: members) ((name, value') :: members')
end

variable {environment}

theorem expandScalar_eq_ok {s : Scalar} {result : Value} :
    Value.scalar <$> expandScalar environment s = .ok result ↔
      Expands environment (.scalar s) result := by
  constructor
  · intro expanded
    obtain ⟨scalar, here, rfl⟩ := map_eq_ok.mp expanded
    cases s with
    | text text =>
        rw [expandScalar] at here
        obtain ⟨replaced, written, rfl⟩ := map_eq_ok.mp here
        exact .text ((expandText_eq_ok environment).mp written)
    | _ =>
        cases here
        exact .other _ nofun
  · intro expands
    cases expands with
    | text substituted =>
        rw [expandScalar, (expandText_eq_ok environment).mpr substituted]
        rfl
    | other _ other =>
        cases s with
        | text text => exact absurd rfl (other text)
        | _ => rfl

mutual
theorem expand_eq_ok : (value : Value) → {result : Value} →
    (expand environment value = .ok result ↔ Expands environment value result)
  | .scalar s, result => by rw [expand, expandScalar_eq_ok]
  | .list items, result => by
      rw [expand, map_eq_ok]
      constructor
      · rintro ⟨replaced, expanded, rfl⟩
        exact .list ((expandItems_eq_ok items).mp expanded)
      · rintro (_ | _ | each)
        exact ⟨_, (expandItems_eq_ok items).mpr each, rfl⟩
  | .object members, result => by
      rw [expand, map_eq_ok]
      constructor
      · rintro ⟨replaced, expanded, rfl⟩
        exact .object ((expandMembers_eq_ok members).mp expanded)
      · rintro (_ | _ | _ | each)
        exact ⟨_, (expandMembers_eq_ok members).mpr each, rfl⟩

theorem expandItems_eq_ok : (items : List Value) → {results : List Value} →
    (expandItems environment items = .ok results ↔ ExpandsItems environment items results)
  | [], results => by
      rw [expandItems, Except.ok.injEq]
      constructor
      · rintro rfl
        exact .nil
      · rintro ⟨⟩
        rfl
  | item :: items, results => by
      rw [expandItems, pair_eq_ok]
      constructor
      · rintro ⟨first, rest, here, later, rfl⟩
        exact .cons ((expand_eq_ok item).mp here) ((expandItems_eq_ok items).mp later)
      · rintro (_ | ⟨first, rest⟩)
        exact ⟨_, _, (expand_eq_ok item).mpr first, (expandItems_eq_ok items).mpr rest, rfl⟩

theorem expandMembers_eq_ok : (members : List (Scalar × Value)) →
    {results : List (Scalar × Value)} →
      (expandMembers environment members = .ok results ↔
        ExpandsMembers environment members results)
  | [], results => by
      rw [expandMembers, Except.ok.injEq]
      constructor
      · rintro rfl
        exact .nil
      · rintro ⟨⟩
        rfl
  | (name, value) :: members, results => by
      rw [expandMembers, pair_eq_ok]
      constructor
      · rintro ⟨first, rest, here, later, rfl⟩
        exact .cons ((expand_eq_ok value).mp here) ((expandMembers_eq_ok members).mp later)
      · rintro (_ | ⟨first, rest⟩)
        exact ⟨_, _, (expand_eq_ok value).mpr first, (expandMembers_eq_ok members).mpr rest, rfl⟩
end

/-! The first variable that is missed. -/

/-- The first reference to a variable that is not set, in texts one after the other. -/
def FirstUnsetOf (environment : Environment) (texts : List String) (name : String) : Prop :=
  ∃ earlier text later, texts = earlier ++ text :: later ∧ FirstUnset environment text name ∧
    ∀ other ∈ earlier, AllSet environment other.toList

theorem not_firstUnsetOf_nil {name : String} : ¬ FirstUnsetOf environment [] name :=
  fun ⟨earlier, text, later, split, _⟩ => by simp at split

theorem firstUnsetOf_singleton {text name : String} :
    FirstUnsetOf environment [text] name ↔ FirstUnset environment text name := by
  constructor
  · intro ⟨earlier, found, later, split, unset, _⟩
    cases earlier with
    | nil =>
        cases split
        exact unset
    | cons other earlier => simp at split
  · intro unset
    exact ⟨[], text, [], rfl, unset, by simp⟩

theorem FirstUnset.not_allSet {text name : String} (unset : FirstUnset environment text name) :
    ¬ AllSet environment text.toList := by
  obtain ⟨before, after, split, valid, missing, -⟩ := unset
  intro set
  rw [split, ← List.append_assoc] at set
  exact set name ⟨valid, before, after, rfl⟩ missing

theorem firstUnsetOf_append {front back : List String} {name : String} :
    FirstUnsetOf environment (front ++ back) name ↔
      FirstUnsetOf environment front name ∨
        (∀ text ∈ front, AllSet environment text.toList) ∧ FirstUnsetOf environment back name := by
  constructor
  · intro ⟨earlier, text, later, split, unset, set⟩
    obtain ⟨middle, rfl, rest⟩ | ⟨middle, rfl, rest⟩ := List.append_eq_append_iff.mp split
    · refine .inr ⟨fun other member => set other (List.mem_append_left _ member), ?_⟩
      exact ⟨middle, text, later, rest, unset,
        fun other member => set other (List.mem_append_right _ member)⟩
    · cases middle with
      | nil =>
          refine .inr ⟨by simpa using set, [], text, later, by simpa using rest.symm, unset, by simp⟩
      | cons first middle =>
          obtain ⟨rfl, -⟩ := List.cons.inj rest
          exact .inl ⟨earlier, text, middle, rfl, unset, set⟩
  · rintro (⟨earlier, text, later, rfl, unset, set⟩ | ⟨front, earlier, text, later, rfl, unset, set⟩)
    · exact ⟨earlier, text, later ++ back, by simp, unset, set⟩
    · refine ⟨_, text, later, (List.append_assoc _ _ _).symm, unset, ?_⟩
      exact List.forall_mem_append.mpr ⟨front, set⟩

mutual
theorem Expands.allSet : (value : Value) → {result : Value} → Expands environment value result →
    ∀ text ∈ texts value, AllSet environment text.toList
  | .scalar s, _, expands => by
      rw [texts]
      cases expands with
      | text substituted => exact List.forall_mem_singleton.mpr substituted.allSet
      | other _ other => simp [textsOfScalar]
  | .list items, _, .list each => ExpandsItems.allSet items each
  | .object members, _, .object each => ExpandsMembers.allSet members each

theorem ExpandsItems.allSet : (items : List Value) → {results : List Value} →
    ExpandsItems environment items results →
      ∀ text ∈ textsOfItems items, AllSet environment text.toList
  | [], _, .nil => by simp [textsOfItems]
  | item :: items, _, .cons first rest =>
      List.forall_mem_append.mpr ⟨Expands.allSet item first, ExpandsItems.allSet items rest⟩

theorem ExpandsMembers.allSet : (members : List (Scalar × Value)) →
    {results : List (Scalar × Value)} → ExpandsMembers environment members results →
      ∀ text ∈ textsOfMembers members, AllSet environment text.toList
  | [], _, .nil => by simp [textsOfMembers]
  | (_, value) :: members, _, .cons first rest =>
      List.forall_mem_append.mpr ⟨Expands.allSet value first, ExpandsMembers.allSet members rest⟩
end

theorem FirstUnsetOf.exists_not_allSet {list : List String} {name : String}
    (unset : FirstUnsetOf environment list name) :
    ∃ text ∈ list, ¬ AllSet environment text.toList := by
  obtain ⟨earlier, text, later, rfl, unset, -⟩ := unset
  exact ⟨text, by simp, unset.not_allSet⟩

section Failing

variable {α β γ : Type} {make : α → β → γ} {first : Except String α} {second : Except String β}
  {front back : List String}

-- What comes second is reached only when all texts of what comes first are expanded.
theorem pair_eq_error_iff (set : ∀ a, first = .ok a → ∀ text ∈ front, AllSet environment text.toList)
    (here : ∀ name, first = .error name ↔ FirstUnsetOf environment front name)
    (later : ∀ name, second = .error name ↔ FirstUnsetOf environment back name) (name : String) :
    make <$> first <*> second = .error name ↔ FirstUnsetOf environment (front ++ back) name := by
  rw [pair_eq_error, firstUnsetOf_append, here, later]
  refine or_congr_right (and_congr_left fun _ => ⟨fun ⟨a, done⟩ => set a done, fun all => ?_⟩)
  cases first with
  | ok a => exact ⟨a, rfl⟩
  | error missed =>
      obtain ⟨text, member, unset⟩ := ((here missed).mp rfl).exists_not_allSet
      exact absurd (all text member) unset

end Failing

theorem expandScalar_eq_error {s : Scalar} {name : String} :
    Value.scalar <$> expandScalar environment s = .error name ↔
      FirstUnsetOf environment (texts (.scalar s)) name := by
  rw [map_eq_error, texts]
  cases s with
  | text text =>
      rw [expandScalar, map_eq_error, expandText_eq_error, textsOfScalar, firstUnsetOf_singleton]
  | _ =>
      constructor
      · intro failed
        cases failed
      · exact fun unset => absurd unset not_firstUnsetOf_nil

mutual
theorem expand_eq_error : (value : Value) → (name : String) →
    (expand environment value = .error name ↔ FirstUnsetOf environment (texts value) name)
  | .scalar s, name => by rw [expand, expandScalar_eq_error]
  | .list items, name => by rw [expand, map_eq_error, expandItems_eq_error items, texts]
  | .object members, name => by rw [expand, map_eq_error, expandMembers_eq_error members, texts]

theorem expandItems_eq_error : (items : List Value) → (name : String) →
    (expandItems environment items = .error name ↔
      FirstUnsetOf environment (textsOfItems items) name)
  | [], name => ⟨nofun, fun unset => absurd unset not_firstUnsetOf_nil⟩
  | item :: items, name => by
      rw [expandItems, textsOfItems]
      apply pair_eq_error_iff _ (expand_eq_error item) (expandItems_eq_error items)
      intro result expanded
      exact Expands.allSet item ((expand_eq_ok item).mp expanded)

theorem expandMembers_eq_error : (members : List (Scalar × Value)) → (name : String) →
    (expandMembers environment members = .error name ↔
      FirstUnsetOf environment (textsOfMembers members) name)
  | [], name => ⟨nofun, fun unset => absurd unset not_firstUnsetOf_nil⟩
  | (_, value) :: members, name => by
      rw [expandMembers, textsOfMembers]
      apply pair_eq_error_iff _ (expand_eq_error value) (expandMembers_eq_error members)
      intro result expanded
      exact Expands.allSet value ((expand_eq_ok value).mp expanded)
end

theorem exists_expand_eq_error {value : Value} :
    (∃ name, expand environment value = .error name) ↔
      ∃ text ∈ texts value, ∃ name, Refers text.toList name ∧ environment.lookup name = none := by
  constructor
  · intro ⟨name, failed⟩
    obtain ⟨text, member, unset⟩ := ((expand_eq_error value name).mp failed).exists_not_allSet
    simp only [AllSet, not_forall, not_not] at unset
    obtain ⟨name, refers, missing⟩ := unset
    exact ⟨text, member, name, refers, missing⟩
  · intro ⟨text, member, name, refers, missing⟩
    cases expanded : expand environment value with
    | error other => exact ⟨other, rfl⟩
    | ok result =>
        have set := Expands.allSet value ((expand_eq_ok value).mp expanded) text member
        exact absurd missing (set name refers)

end Trees

end ApiCompiler.Variables

namespace ApiCompiler.Settings

open Variables

def unset (path : Option String) (name : String) : Problem :=
  .declared (.configuration ("Environment variable '" ++ name ++ "' is not set") none path none)

/--
Settings fail exactly when one of their texts refers to a variable that is not set, and tell the first
one in the order of the texts. Otherwise they are the same tree with all references replaced at once;
what stands in a variable is not looked at again.
-/
theorem expanded_at_once (environment : Environment) (path : Option String) (value : Value) :
    ((∃ problem, expanded environment path value = .error problem) ↔
      ∃ text ∈ texts value, ∃ name, Refers text.toList name ∧ environment.lookup name = none) ∧
    (∀ problem, expanded environment path value = .error problem ↔
      ∃ name, problem = unset path name ∧ FirstUnsetOf environment (texts value) name) ∧
    (∀ result, expanded environment path value = .ok result ↔
      Expands environment value result) := by
  have whole : expanded environment path value =
      (expand environment value).mapError (unset path) := rfl
  have failing (problem : Problem) : expanded environment path value = .error problem ↔
      ∃ name, problem = unset path name ∧ expand environment value = .error name := by
    rw [whole]
    cases expand environment value <;> simp [Except.mapError, eq_comm, and_comm]
  refine ⟨?_, fun problem => ?_, fun result => ?_⟩
  · rw [← exists_expand_eq_error]
    simp [failing, exists_comm]
  · rw [failing]
    exact exists_congr fun name => and_congr_right fun _ => expand_eq_error value name
  · rw [whole, ← expand_eq_ok]
    cases expand environment value <;> simp [Except.mapError]

end ApiCompiler.Settings
