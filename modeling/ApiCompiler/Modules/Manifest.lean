import ApiCompiler.Component.Blueprint
import ApiCompiler.Modules.ActionGroup

/-!
The manifest module, which puts a component together.
-/

namespace ApiCompiler.Modules

open Component Script

def manifestPath : String := "src/index.ts"

def standardCategory : String := "Application Connectors"

def manifestModule (key : String) (profile : Profile) (category : String) : SourceFile :=
  let description := profile.description.description?.getD profile.label
  let text (name value : String) : Step := .member name (stringLiteral value)
  { path := manifestPath
    imports :=
      (((Imports.addNamed sdkModule ["component"] {}).addNamed
        httpClientModule ["handleErrors"]).addDefault "./actions" "actions").addDefault
        "./connections" "connections"
    defaultExport := some (.steps
      [.block "component(\x7b" "\x7d)"
        [text "key" key,
          .block "display: \x7b" "\x7d,"
            [text "label" profile.label, text "description" description,
              text "category" category, text "iconPath" profile.iconPath],
          .line "hooks: \x7b error: handleErrors \x7d,",
          .line "actions,",
          .line "connections,"]]) }

end ApiCompiler.Modules
