import ApiCompiler.Yaml.Lexer
import ApiCompiler.Yaml.Resolution

/-!
Nodes of YAML documents, with every tag known and every alias replaced by the node it stands for.
-/

namespace ApiCompiler.Yaml

inductive Node
  | scalar (tag : String) (text : String)
  | sequence (tag : String) (items : List Node)
  | mapping (tag : String) (pairs : List (Node × Node))
  deriving Inhabited

/-- The tokens to come, the anchors met, and the handles of tags. -/
structure Composer where
  tokens : List Token
  anchors : List (String × Option Node) := []
  handles : List (String × String) := []

abbrev Composing (α : Type) := StateT Composer (Except Fault) α

namespace Composer

private def reject {α : Type} : Composing α :=
  throw .malformed

def peek : Composing (Option Token) := do
  return (← get).tokens.head?

def skip : Composing Unit :=
  modify fun composer => { composer with tokens := composer.tokens.tail }

def takeIf (token : Token) : Composing Bool := do
  if (← peek) = some token then
    skip
    return true
  else return false

def take (token : Token) : Composing Unit := do
  if !(← takeIf token) then reject

/-- Whether one of the given tokens comes next, or the end of the text. -/
def isNext (tokens : List Token) : Composing Bool := do
  match ← peek with
  | none => return true
  | some token => return tokens.contains token

def emptyNode : Node :=
  .scalar (standardTag "null") ""

/-- The anchor and tag of a node, in either order. -/
structure Properties where
  anchor : Option String := none
  tag : Option TagText := none

private def takeAnchor (properties : Properties) : Composing Properties := do
  match ← peek with
  | some (.anchor name) =>
      skip
      return { properties with anchor := some name }
  | _ => return properties

private def takeTag (properties : Properties) : Composing Properties := do
  match ← peek with
  | some (.tag text) =>
      skip
      return { properties with tag := some text }
  | _ => return properties

def takeProperties : Composing Properties := do
  match ← peek with
  | some (.tag _) => takeAnchor (← takeTag {})
  | _ => takeTag (← takeAnchor {})

/-- The tag in full; an exclamation mark alone leaves it open. -/
def fullTag (properties : Properties) : Composing (Option String) := do
  match properties.tag with
  | none => return none
  | some ⟨none, suffix⟩ => return some suffix
  | some ⟨some handle, suffix⟩ =>
      match (← get).handles.lookup handle with
      | some lead => return some (lead ++ suffix)
      | none => reject

private def tagOr (tag : Option String) (standard : String) : String :=
  match tag with
  | none | some "!" => standard
  | some tag => tag

private def scalarNode (tag : Option String) (text : String) (isPlain : Bool) : Node :=
  let form :=
    if (isPlain && tag.isNone) || tag = some "!" then plainTag text else standardTag "str"
  .scalar (tagOr tag form) text

/-- An anchor may not be given twice; while its node is being read it stands for none. -/
private def openAnchor (anchor : Option String) : Composing Unit := do
  match anchor with
  | none => return
  | some name =>
      if ((← get).anchors.lookup name).isSome then reject
      modify fun composer => { composer with anchors := (name, none) :: composer.anchors }

private def closeAnchor (anchor : Option String) (node : Node) : Composing Node := do
  match anchor with
  | none => return node
  | some name =>
      modify fun composer => { composer with anchors := (name, some node) :: composer.anchors }
      return node

private def aliasNode (name : String) : Composing Node := do
  match (← get).anchors.lookup name with
  | some (some node) => return node
  | _ => reject

/-- Where a node stands, which decides what may start there. -/
inductive Position
  | flow
  | block
  | mappingPart
  deriving DecidableEq

mutual
def node : (fuel : Nat) → Position → Composing Node
  | 0, _ => reject
  | fuel + 1, position => do
      match ← peek with
      | some (.alias name) =>
          skip
          aliasNode name
      | _ =>
          let properties ← takeProperties
          let tag ← fullTag properties
          openAnchor properties.anchor
          closeAnchor properties.anchor (← content fuel position properties tag)

private def content : (fuel : Nat) → Position → Properties → Option String → Composing Node
  | 0, _, _, _ => reject
  | fuel + 1, position, properties, tag => do
      let sequence (items : List Node) : Node := .sequence (tagOr tag (standardTag "seq")) items
      let mapping (pairs : List (Node × Node)) : Node :=
        .mapping (tagOr tag (standardTag "map")) pairs
      match ← peek, position with
      | some .dash, .mappingPart => sequence <$> openItems fuel
      | some (.scalar text isPlain), _ =>
          skip
          return scalarNode tag text isPlain
      | some .openBracket, _ =>
          skip
          sequence <$> flowItems fuel true
      | some .openBrace, _ =>
          skip
          mapping <$> flowPairs fuel true
      | some .sequenceStart, .block | some .sequenceStart, .mappingPart =>
          skip
          sequence <$> blockItems fuel
      | some .mappingStart, .block | some .mappingStart, .mappingPart =>
          skip
          mapping <$> blockPairs fuel
      | _, _ =>
          if properties.anchor.isSome || properties.tag.isSome then
            return scalarNode tag "" true
          else reject

/-- A node, or an empty one if one of some tokens comes next. -/
private def nodeUnless : (fuel : Nat) → List Token → Position → Composing Node
  | 0, _, _ => reject
  | fuel + 1, tokens, position => do
      if ← isNext tokens then return emptyNode else node fuel position

private def blockItems : (fuel : Nat) → Composing (List Node)
  | 0 => reject
  | fuel + 1 => do
      if ← takeIf .dash then
        let item ← nodeUnless fuel [.dash, .blockEnd] .block
        return item :: (← blockItems fuel)
      else
        take .blockEnd
        return []

/-- The items of a sequence that is not indented further than the mapping it is in. -/
private def openItems : (fuel : Nat) → Composing (List Node)
  | 0 => reject
  | fuel + 1 => do
      if ← takeIf .dash then
        let item ← nodeUnless fuel [.dash, .key, .value, .blockEnd] .block
        return item :: (← openItems fuel)
      else return []

/-- The value of a pair, if its colon comes next. -/
private def valueUnless : (fuel : Nat) → List Token → Position → Composing Node
  | 0, _, _ => reject
  | fuel + 1, tokens, position => do
      if ← takeIf .value then nodeUnless fuel tokens position else return emptyNode

private def blockPairs : (fuel : Nat) → Composing (List (Node × Node))
  | 0 => reject
  | fuel + 1 => do
      let ends := [Token.key, .value, .blockEnd]
      if ← takeIf .key then
        let key ← nodeUnless fuel ends .mappingPart
        let value ← valueUnless fuel ends .mappingPart
        return (key, value) :: (← blockPairs fuel)
      else if ← takeIf .blockEnd then return []
      else reject

private def flowItems : (fuel : Nat) → (isFirst : Bool) → Composing (List Node)
  | 0, _ => reject
  | fuel + 1, isFirst => do
      if ← takeIf .closeBracket then return []
      if !isFirst then take .comma
      if ← takeIf .closeBracket then return []
      let ends := [Token.comma, .closeBracket]
      if ← takeIf .key then
        let key ← nodeUnless fuel (.value :: ends) .flow
        let value ← valueUnless fuel ends .flow
        return .mapping (standardTag "map") [(key, value)] :: (← flowItems fuel false)
      else
        let item ← node fuel .flow
        return item :: (← flowItems fuel false)

private def flowPairs : (fuel : Nat) → (isFirst : Bool) → Composing (List (Node × Node))
  | 0, _ => reject
  | fuel + 1, isFirst => do
      if ← takeIf .closeBrace then return []
      if !isFirst then take .comma
      if ← takeIf .closeBrace then return []
      let ends := [Token.comma, .closeBrace]
      if ← takeIf .key then
        let key ← nodeUnless fuel (.value :: ends) .flow
        let value ← valueUnless fuel ends .flow
        return (key, value) :: (← flowPairs fuel false)
      else
        let key ← node fuel .flow
        return (key, emptyNode) :: (← flowPairs fuel false)
end

private def standardHandles : List (String × String) :=
  [("!", "!"), ("!!", standardTag "")]

/-- The directives before a document: one version at most, and no handle twice. -/
private def directives : List Token → (version : Bool) → List (String × String) →
    Except Fault (List (String × String) × List Token)
  | .version major :: rest, version, handles =>
      if version || major ≠ 1 then .error .malformed else directives rest true handles
  | .tagHandle handle lead :: rest, version, handles =>
      if (handles.lookup handle).isSome then .error .malformed
      else directives rest version (handles ++ [(handle, lead)])
  | .otherDirective :: rest, version, handles => directives rest version handles
  | tokens, _, handles => .ok (handles, tokens)

private def documentNode : Composing Node := do
  if ← isNext [.documentStart, .documentEnd] then return emptyNode
  else node (4 * (← get).tokens.length + 4) .block

private def isDirective : Token → Bool
  | .version _ => true
  | .tagHandle .. => true
  | .otherDirective => true
  | _ => false

private def document (tokens : List Token) : Except Fault (Option Node × List Token) := do
  let isExplicit := (tokens.head?.map fun t => isDirective t || t = .documentStart).getD false
  if tokens.isEmpty then return (none, [])
  else
    let (handles, tokens) ←
      if isExplicit then do
        let (handles, rest) ← directives tokens false []
        match rest with
        | .documentStart :: rest => pure (handles ++ standardHandles, rest)
        | _ => .error .malformed
      else pure (standardHandles, tokens)
    let body : Composing Node :=
      if isExplicit then documentNode else node (4 * tokens.length + 4) .block
    let (result, composer) ← body.run { tokens, handles }
    return (some result, composer.tokens)

end Composer

/-- The node that tokens make up, if there is any; only marks of its end may follow it. -/
def Node.ofTokens? (tokens : List Token) : Except Fault (Option Node) := do
  let (node, rest) ← Composer.document tokens
  if (rest.dropWhile (· = .documentEnd)).isEmpty then return node else .error .malformed

end ApiCompiler.Yaml
