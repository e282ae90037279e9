import ApiCompiler.Proofs.Script.Entries
import ApiCompiler.Proofs.Script.ReadBack

/-!
What a source file shows: the names that it binds at the top, and what its imports ask of other files.
-/

namespace ApiCompiler.Script

/-! Names. -/

/-- Words of the script language that cannot be names in a module. -/
def keywords : List String :=
  ["await", "break", "case", "catch", "class", "const", "continue", "debugger", "default",
    "delete", "do", "else", "enum", "export", "extends", "false", "finally", "for", "function",
    "if", "implements", "import", "in", "instanceof", "interface", "let", "new", "null", "package",
    "private", "protected", "public", "return", "static", "super", "switch", "this", "throw",
    "true", "try", "typeof", "var", "void", "while", "with", "yield"]

/-- A name in ASCII that a module can bind. -/
def isBindable (name : String) : Bool :=
  isName name.toList && !keywords.contains name

/-- Every keyword is replaced where a name is made from it. -/
theorem keywords_reserved : ∀ word ∈ keywords, word ∈ Naming.replacements.map Prod.fst := by
  decide

theorem isBindable_of_isIdentifier {name : String}
    (identifier : Naming.isIdentifier name.toList = true)
    (unreserved : name ∉ Naming.replacements.map Prod.fst) : isBindable name = true := by
  have free : name ∉ keywords := fun reserved => unreserved (keywords_reserved name reserved)
  simp [isBindable, isName_of_isIdentifier identifier, free]

/-! Imports. -/

/-- The name that an import asks for, and the name that it is bound to. -/
def specifier (text : String) : String × String :=
  match Text.splitAt ' ' text.toList with
  | [outer, ['a', 's'], own] => (String.ofList outer, String.ofList own)
  | _ => (text, text)

theorem specifier_of_not_mem {name : String} (undivided : ' ' ∉ name.toList) :
    specifier name = (name, name) := by
  rw [specifier, Text.splitAt_of_not_mem undivided]

theorem specifier_of_isIdentifier {name : String}
    (identifier : Naming.isIdentifier name.toList = true) : specifier name = (name, name) :=
  specifier_of_not_mem fun inside =>
    absurd (Naming.isAlphanum_of_isIdentifier identifier ' ' inside) (by decide)

namespace Import

/-- The names that an import binds. -/
def boundNames (i : Import) : List String :=
  i.main.toList ++ i.names.map fun text => (specifier text).2

/-- The names that an import asks another file for, its default export apart. -/
def wantedNames (i : Import) : List String :=
  i.names.map fun text => (specifier text).1

section Identifiers

variable {i : Import}

theorem boundNames_of_isIdentifier
    (identifiers : ∀ name ∈ i.names, Naming.isIdentifier name.toList = true) :
    i.boundNames = i.main.toList ++ i.names := by
  have same : ∀ name ∈ i.names, (specifier name).2 = name := fun name member => by
    rw [specifier_of_isIdentifier (identifiers name member)]
  rw [boundNames, List.map_congr_left same, List.map_id']

theorem wantedNames_of_isIdentifier
    (identifiers : ∀ name ∈ i.names, Naming.isIdentifier name.toList = true) :
    i.wantedNames = i.names := by
  have same : ∀ name ∈ i.names, (specifier name).1 = name := fun name member => by
    rw [specifier_of_isIdentifier (identifiers name member)]
  rw [wantedNames, List.map_congr_left same, List.map_id']

end Identifiers

end Import

/-! Files. -/

namespace SourceFile

/-- The names that a file binds at its top. -/
def boundNames (file : SourceFile) : List String :=
  file.imports.list.flatMap Import.boundNames ++ file.declarations.map Declaration.name

/-- A file whose names at the top are different from each other, and all usable. -/
structure BindsOnce (file : SourceFile) : Prop where
  distinct : file.boundNames.Nodup
  bindable : ∀ name ∈ file.boundNames, isBindable name = true

end SourceFile

end ApiCompiler.Script
