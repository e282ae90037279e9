import Mathlib.Data.List.Basic

/-!
Texts with names in them. A template is filled by writing something for each of its names, at once and
without looking at what is written.
-/

namespace ApiCompiler.Text

/-- Plain texts with a name behind each of them but the last. -/
structure Template where
  leading : List (List Char × String)
  last : List Char

namespace Template

def plains (template : Template) : List (List Char) :=
  template.leading.map Prod.fst ++ [template.last]

def names (template : Template) : List String :=
  template.leading.map Prod.snd

/-- The text with something written in the place of each name. -/
def fill (write : String → List Char) (template : Template) : List Char :=
  template.leading.flatMap (fun (plain, name) => plain ++ write name) ++ template.last

section Parts

variable (write : String → List Char) (plain last : List Char) (name : String)
  (leading : List (List Char × String))

@[simp] theorem fill_nil : fill write ⟨[], last⟩ = last := rfl

@[simp] theorem fill_cons :
    fill write ⟨(plain, name) :: leading, last⟩ =
      plain ++ (write name ++ fill write ⟨leading, last⟩) := by
  simp [fill]

@[simp] theorem plains_nil : plains ⟨[], last⟩ = [last] := rfl

@[simp] theorem plains_cons :
    plains ⟨(plain, name) :: leading, last⟩ = plain :: plains ⟨leading, last⟩ := rfl

@[simp] theorem names_nil : names ⟨[], last⟩ = [] := rfl

@[simp] theorem names_cons :
    names ⟨(plain, name) :: leading, last⟩ = name :: names ⟨leading, last⟩ := rfl

end Parts

def join (first : Template) (name : String) (second : Template) : Template :=
  ⟨first.leading ++ (first.last, name) :: second.leading, second.last⟩

section Joining

variable (write : String → List Char) (first second : Template) (name : String)

theorem fill_join :
    (first.join name second).fill write = first.fill write ++ (write name ++ second.fill write) := by
  simp [join, fill]

theorem names_join : (first.join name second).names = first.names ++ name :: second.names := by
  simp [join, names]

theorem plains_join : (first.join name second).plains = first.plains ++ second.plains := by
  simp [join, plains]

end Joining

theorem exists_join {template : Template} {name : String} {front back : List String}
    (split : template.names = front ++ name :: back) :
    ∃ first second : Template, template = first.join name second ∧ first.names = front ∧
      second.names = back := by
  obtain ⟨leading, last⟩ := template
  obtain ⟨before, rest, rfl, rfl, tail⟩ := List.map_eq_append_iff.mp split
  obtain ⟨⟨plain, name⟩, after, rfl, rfl, rfl⟩ := List.map_eq_cons_iff.mp tail
  exact ⟨⟨before, plain⟩, ⟨after, last⟩, rfl, rfl, rfl⟩

end Template

end ApiCompiler.Text
