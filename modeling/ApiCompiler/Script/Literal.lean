import ApiCompiler.Text.Quoted

/-!
Literals and names in generated scripts.
-/

namespace ApiCompiler.Script

def stringLiteral (text : String) : String :=
  text.quoted

def templateChar (c : Char) : List Char :=
  if c = '\\' then ['\\', '\\'] else if c = '\x60' then ['\\', '\x60'] else [c]

/-- A template: backslashes and backticks are escaped, interpolations stay as they are. -/
def templateLiteral (text : String) : String :=
  String.ofList ('\x60' :: text.toList.flatMap templateChar ++ ['\x60'])

def boolLiteral (b : Bool) : String :=
  if b then "true" else "false"

def listLiteral (items : List String) : String :=
  "[" ++ String.intercalate ", " items ++ "]"

def isNameStart (c : Char) : Bool :=
  c.isAlpha || c = '_' || c = '$'

def isNamePart (c : Char) : Bool :=
  c.isAlphanum || c = '_' || c = '$'

/-- A name that may stand unquoted; one line feed at its end is let through. -/
def isPlainName (name : List Char) : Bool :=
  match name with
  | [] => false
  | c :: rest =>
      let body := if rest.getLast? = some '\n' then rest.dropLast else rest
      isNameStart c && body.all isNamePart

/-- The name of a member of an object literal, quoted unless it may stand as it is. -/
def propertyKey (name : String) : String :=
  if isPlainName name.toList then name else stringLiteral name

end ApiCompiler.Script
