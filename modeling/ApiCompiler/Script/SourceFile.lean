import ApiCompiler.Script.Imports
import ApiCompiler.Script.Layout

/-!
Source files as data: imports, constant declarations and a default export, each section set apart
by a blank line.
-/

namespace ApiCompiler.Script

/-- An expression, as text or as the steps that lay it out. -/
inductive Expression
  | text (source : String)
  | steps (body : List Step)

def Expression.render : Expression → String
  | .text source => source
  | .steps body => layout body

structure Declaration where
  name : String
  value : Expression
  isExported : Bool := false
  annotation : Option String := none

def Declaration.render (d : Declaration) : String :=
  let target :=
    match d.annotation with
    | none => d.name
    | some type => if type.isEmpty then d.name else d.name ++ ": " ++ type
  (if d.isExported then "export const " else "const ") ++ target ++ " = " ++ d.value.render ++ ";"

structure SourceFile where
  path : String
  imports : Imports := {}
  declarations : List Declaration := []
  defaultExport : Option Expression := none

def SourceFile.render (file : SourceFile) : String :=
  let imports :=
    if file.imports.list.isEmpty then [] else [String.intercalate "\n" file.imports.lines]
  let exported :=
    file.defaultExport.toList.map fun value => "export default " ++ value.render ++ ";"
  String.intercalate "\n\n" (imports ++ file.declarations.map Declaration.render ++ exported) ++ "\n"

end ApiCompiler.Script
