import ApiCompiler.Tree.Value
import ApiCompiler.Yaml.Node

/-!
The value that a YAML text holds: scalars by their tags, and mappings with what they merge.
-/

namespace ApiCompiler.Yaml

/-! Scalars. -/

private def withoutGaps (text : List Char) : List Char :=
  text.filter (· ≠ '_')

private def isNegative (text : List Char) : Bool :=
  text.head? = some '-'

/-- A number in digits of a base, of which there has to be one. -/
private def numberIn (base : Nat) (digits : List Char) : Except Fault Nat :=
  match digits.mapM (Text.asciiDigit? base) with
  | some (digit :: rest) => .ok (Text.ofDigits base (digit :: rest))
  | _ => .error (.number base (String.ofList digits))

private def decimalIn (digits : List Char) : Except Fault Nat :=
  if Text.digitLimit < digits.length then .error (.digits digits.length)
  else numberIn 10 digits

private def magnitudeOf (body : List Char) : Except Fault Nat :=
  match body with
  | [] => .error .noNumber
  | '0' :: 'b' :: rest => numberIn 2 rest
  | '0' :: 'x' :: rest => numberIn 16 rest
  | '0' :: rest => numberIn 8 ('0' :: rest)
  | body =>
      if body.contains ':' then do
        let parts ← (Text.splitAt ':' body).mapM decimalIn
        return Text.ofDigits 60 parts
      else decimalIn body

/-- An integer: binary, octal, hexadecimal, decimal, or in base sixty. -/
def integerOf (text : List Char) : Except Fault Int := do
  let text := withoutGaps text
  let magnitude ← magnitudeOf (dropSign text)
  return if isNegative text then -(magnitude : Int) else magnitude

private def plainFloat (text : List Char) : Except Fault Binary64 :=
  match Binary64.ofText? text with
  | some x => .ok x
  | none => .error (.fraction (String.ofList text))

/-- The last part of a number in base sixty counts once, each part before it sixty times more. -/
private def sexagesimalFloat (body : List Char) : Except Fault Float := do
  let parts ← (Text.splitAt ':' body).mapM plainFloat
  let (sum, _) := parts.reverse.foldl
    (fun ((sum, base) : Float × Nat) part =>
      (sum + part.toFloat * (Binary64.ofDecimal false base 0).toFloat, base * 60))
    (0.0, 1)
  return sum

private def negate (isNegative : Bool) (x : Float) : Binary64 :=
  .ofFloat (if isNegative then -x else x)

/-- A floating-point number: infinite, no number, decimal, or in base sixty. -/
def floatOf (text : List Char) : Except Fault Binary64 := do
  let text := (withoutGaps text).map Char.toLower
  let body := dropSign text
  if text.isEmpty then throw .noNumber
  else if body = ".inf".toList then return .infinity (isNegative text)
  else if body = ".nan".toList then return .nan
  else if body.contains ':' then return negate (isNegative text) (← sexagesimalFloat body)
  else return negate (isNegative text) (← plainFloat body).toFloat

def truthOf (text : String) : Option Bool :=
  let word := String.ofList (text.toList.map Char.toLower)
  if ["yes", "true", "on"].contains word then some true
  else if ["no", "false", "off"].contains word then some false
  else none

private def calendar {α : Type} (result : Except CalendarFault α) : Except Fault α :=
  result.mapError .calendar

/-- An offset of less than a day either way. -/
private def checkOffset : Option Int → Except CalendarFault Unit
  | none => .ok ()
  | some seconds => if seconds.natAbs < 86400 then .ok () else .error (.offset seconds)

/-- A date, or an instant if there is a time of day. -/
def timeOf (parts : TimeParts) : Except Fault Scalar :=
  match parts.clock with
  | none => do return .date (← calendar (Date.make parts.year parts.month parts.day))
  | some clock => do
      calendar (checkOffset clock.offset)
      let date ← calendar (Date.make parts.year parts.month parts.day)
      let time ← calendar (ClockTime.make clock.hour clock.minute clock.second clock.micro)
      return .timestamp ⟨date, time, clock.offset⟩

def scalarOf (tag text : String) : Except Fault Scalar :=
  if tag = standardTag "str" then .ok (.text text)
  else if tag = standardTag "null" then .ok .null
  else if tag = standardTag "int" then .int <$> integerOf text.toList
  else if tag = standardTag "float" then .float <$> floatOf text.toList
  else if tag = standardTag "bool" then
    match truthOf text with
    | some b => .ok (.bool b)
    | none => .error (.word (String.ofList (text.toList.map Char.toLower)))
  else if tag = standardTag "timestamp" then
    match timeParts? text.toList with
    | some parts => timeOf parts
    | none => .error .noDate
  else .error .malformed

/-! Trees. -/

/-- A fault at a depth: of several the one nearest to the root counts, of these the first. -/
structure DeepFault where
  depth : Nat
  fault : Fault

abbrev Built (α : Type) := Except DeepFault α

/-- Both results, or the fault that counts. -/
def both {α β : Type} : Built α → Built β → Built (α × β)
  | .ok a, .ok b => .ok (a, b)
  | .error fault, .ok _ => .error fault
  | .ok _, .error fault => .error fault
  | .error first, .error second =>
      .error (if second.depth < first.depth then second else first)

private def atDepth {α : Type} (depth : Nat) (result : Except Fault α) : Built α :=
  result.mapError fun fault => ⟨depth, fault⟩

private def isMerge : Node → Bool
  | .scalar tag _ => tag = standardTag "merge"
  | _ => false

/-- The pairs that a mapping has besides its own: of several mappings the first one wins. -/
private def flattened : (fuel : Nat) → List (Node × Node) → Except Fault (List (Node × Node))
  | 0, _ => .error .malformed
  | fuel + 1, pairs => do
      let merged ← (pairs.filter fun (key, _) => isMerge key).mapM fun (_, value) =>
        match value with
        | .mapping _ inner => flattened fuel inner
        | .sequence _ items => do
            let parts ← items.mapM fun item =>
              match item with
              | .mapping _ inner => flattened fuel inner
              | _ => .error .malformed
            return parts.reverse.flatten
        | .scalar .. => .error .malformed
      return merged.flatten ++ pairs.filter fun (key, _) => !isMerge key

mutual
private def depthOf : Node → Nat
  | .scalar .. => 1
  | .sequence _ items => depthOfItems items + 1
  | .mapping _ pairs => depthOfPairs pairs + 1

private def depthOfItems : List Node → Nat
  | [] => 0
  | item :: rest => max (depthOf item) (depthOfItems rest)

private def depthOfPairs : List (Node × Node) → Nat
  | [] => 0
  | (key, value) :: rest => max (max (depthOf key) (depthOf value)) (depthOfPairs rest)
end

/-- The name of a member: a scalar, where an equals sign alone is a text. -/
private def nameOf (depth : Nat) : Node → Built Scalar
  | .scalar tag text =>
      let tag := if tag = standardTag "value" then standardTag "str" else tag
      atDepth depth (scalarOf tag text)
  | _ => .error ⟨depth, .malformed⟩

/-- The value of a node; the fuel is more than its depth, merged mappings included. -/
def valueAt : (fuel depth : Nat) → Node → Built Value
  | 0, depth, _ => .error ⟨depth, .malformed⟩
  | fuel + 1, depth, node =>
      match node with
      | .scalar tag text => .scalar <$> atDepth depth (scalarOf tag text)
      | .sequence tag items =>
          if tag ≠ standardTag "seq" then .error ⟨depth, .malformed⟩
          else .list <$> items.foldr
            (fun item rest => (fun (a, b) => a :: b) <$> both (valueAt fuel (depth + 1) item) rest)
            (.ok [])
      | .mapping tag pairs =>
          if tag ≠ standardTag "map" then .error ⟨depth, .malformed⟩
          else do
            let pairs ← atDepth (depth + 1) (flattened (fuel + 1) pairs)
            let members ← pairs.foldr
              (fun (key, value) rest =>
                (fun (a, b) => a :: b) <$>
                  both (both (nameOf (depth + 1) key) (valueAt fuel (depth + 1) value)) rest)
              (.ok [])
            return .object (Members.ofList members)

def Node.value (node : Node) : Except Fault Value :=
  (valueAt (depthOf node + 1) 0 node).mapError DeepFault.fault

/-- The value that a text holds; null if it holds no document. -/
def read (text : String) : Except Fault Value := do
  match ← Node.ofTokens? (← Token.ofText text) with
  | none => return .null
  | some node => node.value

end ApiCompiler.Yaml
