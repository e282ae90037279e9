import ApiCompiler.World.Basic

/-!
The content of a document by its location: a file, or a web address. Files with the suffix of YAML
files and answers that are said to be YAML are read as YAML, everything else as JSON.

That a document is not there, cannot be got or has no form is declared. Not so what goes wrong with
a value in it, nor with the question whether a file is there, nor with an address that is none.
-/

namespace ApiCompiler

/-- A fault of a YAML text: a value that cannot be is no fault of the document's form. -/
def Yaml.Fault.toProblem (ofMalformed : Problem) : Yaml.Fault → Problem
  | .malformed => ofMalformed
  | .calendar fault => .undeclared (.calendar fault)
  | .number base text => .undeclared (.badNumber base text)
  | .fraction text => .undeclared (.badFraction text)
  | .digits count => .undeclared (.digits count)
  | .character => .undeclared .badCharacter
  | .word text => .undeclared (.badWord text)
  | .noNumber => .undeclared .noNumber
  | .noDate => .undeclared .noDate

namespace Loading

def parse (readYaml : String → Except Yaml.Fault Value) (isYaml : Bool) (source text : String) :
    Except Problem Value :=
  if isYaml then
    (readYaml text).mapError (Yaml.Fault.toProblem (.declared (.load source (some .yaml))))
  else
    match Json.read text with
    | .ok value => .ok value
    | .error (.digits count) => .error (.undeclared (.digits count))
    | .error fault => .error (.declared (.load source (some (.json fault))))

/-- The text of bytes, with every line ended by a line feed. -/
def decodeText (bytes : ByteArray) : Except Problem String :=
  match Text.decodeUtf8 bytes with
  | .ok text => .ok (String.ofList (Text.unifyLineEndings text.toList))
  | .error fault => .error (.undeclared (.undecodable fault))

def fileContent (world : World) (location : String) : Except Problem Value := do
  let path := FilePath.ofText location
  match world.presence path with
  | .error fault => .error (.undeclared (.disk fault))
  | .ok false => .error (.declared (.load location (some (.noFile path.text))))
  | .ok true =>
      match world.read path with
      | .error fault => .error (.declared (.load location (some (.disk fault))))
      | .ok bytes => parse world.access.yaml path.isYaml location (← decodeText bytes)

def isYamlAnswer (url : String) (answer : WebAnswer) : Bool :=
  let type := (answer.header? "content-type").getD ""
  Text.occurs "yaml".toList type.toList || url.endsWith ".yaml" || url.endsWith ".yml"

def webContent (world : World) (followsRedirections : Bool) (location : String) :
    Except Problem Value :=
  match world.access.fetch world.web followsRedirections location with
  | .error (.address text) => .error (.undeclared (.webAddress text))
  | .error fault => .error (.declared (.load location (some (.web fault))))
  | .ok answer =>
      parse world.access.yaml (isYamlAnswer location answer) location answer.text

def content (world : World) (followsRedirections : Bool) (location : String) :
    Except Problem Value :=
  if Url.isWeb location then webContent world followsRedirections location
  else fileContent world location

end Loading

end ApiCompiler
