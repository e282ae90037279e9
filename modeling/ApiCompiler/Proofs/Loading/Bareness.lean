import ApiCompiler.Proofs.Loading.Forms
import ApiCompiler.Proofs.Loading.Reached

/-!
Where every reference leads somewhere, none is left: what a reference gives way to refers to nothing,
and nor does any object that is met on the way.
-/

namespace ApiCompiler

theorem Scalar.sameName_text {text : String} {key : Scalar}
    (same : (Scalar.text text).sameName key = true) : key = .text text := by
  unfold Scalar.sameName at same
  split at same
  · rename_i none _
    cases none
  · cases same
  · cases same
  · split at same
    · rename_i isFloat _
      cases isFloat
    · rename_i isTime _
      cases isTime
    · exact (of_decide_eq_true same).symm

section Members

variable {ν : Type} {name : String}

theorem Members.find?_put {key : Scalar} {value : ν} (apart : key ≠ .text name)
    (members : Members ν) : (members.put key value).find? name = members.find? name := by
  induction members with
  | nil => simp only [put, find?, if_neg apart]
  | cons first members ih =>
      obtain ⟨other, old⟩ := first
      rw [put]
      split
      · rename_i same
        rw [find?, find?, if_neg, if_neg]
        all_goals
          rintro rfl
          exact apart (Scalar.sameName_text same)
      · rw [find?, find?, ih]

theorem Members.find?_override {base own : Members ν} (absent : own.find? name = none) :
    (base.override own).find? name = base.find? name := by
  induction own generalizing base with
  | nil => rfl
  | cons first own ih =>
      obtain ⟨key, value⟩ := first
      rw [find?] at absent
      split at absent
      · cases absent
      · rename_i apart
        exact (ih absent).trans (find?_put apart base)

theorem Members.find?_filter {kept : Scalar × ν → Bool} {keeps : Bool}
    (same : ∀ value, kept (.text name, value) = keeps) (members : Members ν) :
    Members.find? name (members.filter kept) = if keeps then members.find? name else none := by
  induction members with
  | nil => exact (ite_self none).symm
  | cons first members ih =>
      obtain ⟨key, value⟩ := first
      by_cases here : key = .text name
      · subst here
        rw [List.filter_cons, same value]
        cases keeps with
        | true => rw [if_pos rfl, if_pos rfl, find?, find?, if_pos rfl, if_pos rfl]
        | false => simpa using ih
      · rw [List.filter_cons, find?, if_neg here, ← ih]
        split
        · rw [find?, if_neg here]
        · rfl

end Members

end ApiCompiler

namespace ApiCompiler.Openapi.Expansion

def text? : Expansion → Option String
  | .scalar (.text s) => some s
  | _ => none

/-- What an expansion refers to, if it is an object that still does. -/
def reference? : Expansion → Option String
  | .object members _ _ => (Members.find? referenceKey members).bind text?
  | _ => none

theorem text?_ofValue (value : Value) : (ofValue value).text? = value.text? := by
  cases value with
  | scalar s => cases s <;> rfl
  | list items => rfl
  | object members => rfl

theorem find?_ofNamed {name : String} (members : List (Scalar × Value)) :
    Members.find? name (ofNamed members) = (Members.find? name members).map ofValue := by
  induction members with
  | nil => rfl
  | cons first members ih =>
      obtain ⟨key, value⟩ := first
      rw [ofNamed, Members.find?, Members.find?]
      split
      · rfl
      · exact ih

end ApiCompiler.Openapi.Expansion

namespace ApiCompiler.Loading

open Openapi

theorem withoutNested_find? (name : String) (members : Members Value) :
    (Inlining.withoutNested (.object members)).member? name =
      if nestedSchemaKeys.contains name then none else members.find? name := by
  rw [Inlining.withoutNested, Value.member?, Members.find?_filter fun _ => rfl]
  cases nestedSchemaKeys.contains name <;> rfl

/-- What a reference to a target without nested schemas gives way to refers to nothing. -/
theorem withoutNested_reference? (value : Value) :
    (Expansion.ofValue (Inlining.withoutNested value)).reference? = none := by
  cases value with
  | scalar s => rfl
  | list items => rfl
  | object members =>
      have gone : Members.find? referenceKey (Expansion.ofNamed _) = none :=
        (Expansion.find?_ofNamed _).trans (congrArg _ (withoutNested_find? _ members))
      exact congrArg (Option.bind · Expansion.text?) gone

theorem withoutNested_text? (value : Value) :
    (Expansion.ofValue (Inlining.withoutNested value)).text? = value.text? := by
  rw [Expansion.text?_ofValue]
  cases value <;> rfl

theorem walkMembers_siblings {σ : Type} {follow : Follow (ExceptT Problem (StateM σ))}
    {scope : Option Scope} {members : List (Scalar × Value)} {own : Members Expansion}
    {before after : σ} (ran : (walkMembers follow scope true members).run before = (.ok own, after)) :
    own.find? referenceKey = none := by
  induction members generalizing own before with
  | nil =>
      rw [walkMembers, run_pure] at ran
      cases ran
      rfl
  | cons first members ih =>
      obtain ⟨name, value⟩ := first
      rw [walkMembers] at ran
      split at ran
      · exact ih ran
      · rename_i kept
        obtain ⟨first, middle, -, ran⟩ := run_bind_eq_ok ran
        obtain ⟨others, last, later, ran⟩ := run_bind_eq_ok ran
        cases ran
        rw [Members.find?, if_neg (by simpa using kept)]
        exact ih later

namespace Job

/-- Every reference that is met leads somewhere, and none leads to a text. -/
def Tidy (job : Job) : Prop :=
  ∀ target, job.Met target → ∀ reference ∈ referencesOf target.value,
    ∃ next, job.target? target reference = some next ∧ next.value.text? = none

/-- So it is if the references of the document all lead to something in it, and none to a text. -/
theorem tidy_of_own {job : Job} (leads : ∀ reference ∈ referencesOf job.document, ∃ value,
      job.target? job.start reference = some ⟨value, job.document, job.location⟩ ∧
        value.text? = none) : job.Tidy := by
  have met (target : Target) (met : job.Met target) : ∃ value,
      target = ⟨value, job.document, job.location⟩ ∧
        referencesOf value ⊆ referencesOf job.document := by
    induction met with
    | refl => exact ⟨_, rfl, List.Subset.refl _⟩
    | tail _ refers ih =>
        obtain ⟨value, rfl, inside⟩ := ih
        obtain ⟨reference, member, here⟩ := refers
        obtain ⟨next, there, -⟩ := leads reference (inside member)
        obtain rfl := Option.some.inj (here.symm.trans there)
        exact ⟨next, rfl, (target?_eq_some here).2.subset⟩
  intro target reached reference member
  obtain ⟨value, rfl, inside⟩ := met target reached
  obtain ⟨next, there, notText⟩ := leads reference (inside member)
  exact ⟨_, there, notText⟩

/-- No text, and no object that refers to anything. -/
def Settled (expansion : Expansion) : Prop :=
  expansion.reference? = none ∧ expansion.text? = none

def Turned (job : Job) : Becomes :=
  fun _ _ _ expansion => job.Tidy → Settled expansion

variable {job : Job} {scope : Scope} {value : Value} {expansion : Expansion}

/-- What is written beside a reference does not make it refer again. -/
theorem Settled.overlay {σ : Type} {follow : Follow (ExceptT Problem (StateM σ))}
    {scope : Option Scope} {node : Members Value} {base : Expansion} {before after : σ}
    (settled : Settled base) (ran : (overlay node (walkMembers follow scope true node) base).run
      before = (.ok expansion, after)) : Settled expansion := by
  cases base with
  | scalar s => cases ran; exact settled
  | list items => cases ran; exact settled
  | object members plain schema =>
      rw [Loading.overlay] at ran
      split at ran
      · cases ran
        exact settled
      · obtain ⟨own, middle, walked, ran⟩ := run_bind_eq_ok ran
        cases ran
        refine ⟨?_, rfl⟩
        rw [Expansion.ofMembers, Expansion.reference?,
          Members.find?_override (walkMembers_siblings walked)]
        exact settled.1

theorem settled_withoutNested (notText : value.text? = none) :
    Settled (.ofValue (Inlining.withoutNested value)) :=
  ⟨withoutNested_reference? value, (withoutNested_text? value).trans notText⟩

end Job

def Textless : Becomes :=
  fun _ _ _ expansion => expansion.text? = none

section Forms

variable {job : Job} {scope : Scope} {value : Value} {expansion : Expansion}

theorem Forms.text? (forms : Forms Textless scope value expansion) (notText : value.text? = none) :
    expansion.text? = none := by
  cases value with
  | scalar s =>
      rw [Forms] at forms
      rw [forms, ← notText]
      exact Expansion.text?_ofValue (.scalar s)
  | list items =>
      rw [Forms] at forms
      obtain ⟨expansions, rfl, -⟩ := forms
      rfl
  | object members =>
      rw [Forms] at forms
      split at forms
      · exact forms
      · obtain ⟨own, rfl, -⟩ := forms
        rfl

theorem Forms.textless (forms : Forms job.Turned scope value expansion) (tidy : job.Tidy) :
    Forms Textless scope value expansion :=
  Forms.mono (fun _ _ _ _ turned => (turned tidy).2) value forms

theorem Forms.reference? (forms : Forms job.Turned scope value expansion) (tidy : job.Tidy) :
    expansion.reference? = none := by
  cases value with
  | scalar s =>
      rw [Forms] at forms
      rw [forms]
      rfl
  | list items =>
      rw [Forms] at forms
      obtain ⟨expansions, rfl, -⟩ := forms
      rfl
  | object members =>
      rw [Forms] at forms
      split at forms
      · exact (forms tidy).1
      · rename_i own
        obtain ⟨expansions, rfl, inside⟩ := forms
        rw [Expansion.ofMembers, Expansion.reference?]
        rcases inside.find? referenceKey with ⟨-, absent⟩ | ⟨value, part, found, found', here⟩
        · rw [absent]
          rfl
        · rw [Loading.reference?, found] at own
          rw [found']
          exact (here.textless tidy).text? own

theorem Forms.settled (forms : Forms job.Turned scope value expansion) (tidy : job.Tidy)
    (notText : value.text? = none) : Job.Settled expansion :=
  ⟨forms.reference? tidy, (forms.textless tidy).text? notText⟩

mutual
theorem forms_ofValue (scope : Scope) : (value : Value) → Forms Textless scope value (.ofValue value)
  | .scalar s => by
      rw [Forms]
      rfl
  | .list items => by
      rw [Forms]
      exact ⟨_, rfl, formsItems_ofItems scope items⟩
  | .object members => by
      rw [Forms]
      split
      · rfl
      · exact ⟨_, rfl, formsMembers_ofNamed scope members⟩

theorem formsItems_ofItems (scope : Scope) :
    (items : List Value) → FormsItems Textless scope items (Expansion.ofItems items)
  | [] => by
      rw [FormsItems]
      rfl
  | item :: rest => by
      rw [FormsItems]
      exact ⟨_, _, rfl, forms_ofValue scope item, formsItems_ofItems scope rest⟩

theorem formsMembers_ofNamed (scope : Scope) :
    (members : List (Scalar × Value)) →
      FormsMembers Textless scope members (Expansion.ofNamed members)
  | [] => by
      rw [FormsMembers]
      rfl
  | (name, value) :: rest => by
      rw [FormsMembers]
      exact ⟨_, _, rfl, forms_ofValue _ value, formsMembers_ofNamed scope rest⟩
end

end Forms

end ApiCompiler.Loading
