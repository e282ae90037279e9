import ApiCompiler.Openapi.Operation
import ApiCompiler.Openapi.Security
import ApiCompiler.Text.Segments

/-!
Whole interface descriptions.
-/

namespace ApiCompiler.Openapi

structure Info where
  title : String
  description : Member String
  version : Option String
  extras : List (String × Value)

namespace Info

def check : Expansion → Check Info :=
  Shape.record "Info" fun m =>
    Info.mk <$> m.required ["title"] Shape.text <*>
      m.nullable ["description"] Shape.text <*>
      m.optional ["version"] Shape.text <*>
      m.extras [["title"], ["description"], ["version"]] Expansion.plain

def dump (info : Info) : Value :=
  .record (("title", .text info.title) :: info.description.written "description" .text ++
    writtenOption "version" .text info.version ++ info.extras)

end Info

structure ServerVariable where
  default : String
  choices : Member (List String)
  description : Member String
  extras : List (String × Value)

namespace ServerVariable

def check : Expansion → Check ServerVariable :=
  Shape.record "ServerVariable" fun m =>
    ServerVariable.mk <$> m.required ["default"] Shape.text <*>
      m.nullable ["enum"] (Shape.list Shape.text) <*>
      m.nullable ["description"] Shape.text <*>
      m.extras [["default"], ["enum"], ["description"]] Expansion.plain

def dump (v : ServerVariable) : Value :=
  .record (("default", .text v.default) ::
    v.choices.written "enum" (fun choices => .list (choices.map .text)) ++
    v.description.written "description" .text ++ v.extras)

end ServerVariable

structure Server where
  url : String
  description : Member String
  parameters : Option (List (String × ServerVariable))
  extras : List (String × Value)

namespace Server

def check : Expansion → Check Server :=
  Shape.record "Server" fun m =>
    Server.mk <$> m.required ["url"] Shape.text <*>
      m.nullable ["description"] Shape.text <*>
      m.optional ["variables"] (Shape.dictionary ServerVariable.check) <*>
      m.extras [["url"], ["description"], ["variables"]] Expansion.plain

def dump (s : Server) : Value :=
  .record (("url", .text s.url) :: s.description.written "description" .text ++
    writtenOption "variables"
      (fun parameters => .record (parameters.map fun (name, v) => (name, v.dump))) s.parameters ++
    s.extras)

def placeholder (name : String) : List Char :=
  '\x7b' :: name.toList ++ ['\x7d']

/-- The address with the default of each variable in its place, one variable after the other. -/
def resolvedUrl (s : Server) : String :=
  String.ofList ((s.parameters.getD []).foldl
    (fun url (name, v) => Text.replace (placeholder name) v.default.toList url) s.url.toList)

end Server

structure Document where
  openapi : String
  info : Info
  servers : Option (List Server)
  paths : Option (List (String × PathItem))
  components : Member Components
  basePath : Member String
  extras : List (String × Value)

namespace Document

def check : Expansion → Check Document :=
  Shape.record "Document" fun m =>
    Document.mk <$> m.required ["openapi"] Shape.text <*>
      m.required ["info"] Info.check <*>
      m.optional ["servers"] (Shape.list Server.check) <*>
      m.optional ["paths"] (Shape.dictionary PathItem.check) <*>
      m.nullable ["components"] Components.check <*>
      m.nullable ["basePath"] Shape.text <*>
      m.extras [["openapi"], ["info"], ["servers"], ["paths"], ["components"], ["basePath"]]
        Expansion.plain

def dump (d : Document) : Value :=
  .record ([("openapi", .text d.openapi), ("info", d.info.dump)] ++
    writtenOption "servers" (fun servers => .list (servers.map Server.dump)) d.servers ++
    writtenOption "paths"
      (fun paths => .record (paths.map fun (name, item) => (name, item.dump))) d.paths ++
    d.components.written "components" Components.dump ++
    d.basePath.written "basePath" .text ++ d.extras)

def securitySchemes (d : Document) : List (String × Node SecurityScheme) :=
  match d.components.toOption with
  | some components => components.securitySchemes.getD []
  | none => []

end Document

end ApiCompiler.Openapi
