/-!
Tokens of YAML texts. Blocks are opened and closed by tokens of their own, as brackets are.
-/

namespace ApiCompiler.Yaml

/-- A tag as it is written: one in full, or a handle with what follows it. -/
structure TagText where
  handle : Option String
  suffix : String
  deriving DecidableEq

inductive Token
  | version (major : Nat)
  | tagHandle (handle lead : String)
  | otherDirective
  | documentStart
  | documentEnd
  | sequenceStart
  | mappingStart
  | blockEnd
  | openBracket
  | closeBracket
  | openBrace
  | closeBrace
  | dash
  | comma
  | key
  | value
  | alias (name : String)
  | anchor (name : String)
  | tag (text : TagText)
  | scalar (text : String) (isPlain : Bool)
  deriving DecidableEq

end ApiCompiler.Yaml
