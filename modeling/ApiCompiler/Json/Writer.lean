import ApiCompiler.Text.Quoted
import ApiCompiler.Tree.Value

/-!
JSON text of a document tree, in ASCII, with a blank after every comma and colon.
-/

namespace ApiCompiler.Json

inductive WriteFault
  | value (kind : String)
  | name (kind : String)
  | digits
  deriving DecidableEq

namespace WriteFault

def message : WriteFault → String
  | .value kind => "Object of type " ++ kind ++ " is not JSON serializable"
  | .name kind => "keys must be str, int, float, bool or None, not " ++ kind
  | .digits =>
      "Exceeds the limit (4300 digits) for integer string conversion; use " ++
        "sys.set_int_max_str_digits() to increase the limit"

end WriteFault

def digitBound : Nat := Nat.pow 10 Text.digitLimit

def intText (n : Int) : Except WriteFault (List Char) :=
  if digitBound ≤ n.natAbs then .error .digits else .ok (toString n).toList

def floatText (x : Binary64) : List Char :=
  if x.isNaN then "NaN".toList
  else if x.isInfinite then (if x.isNegative then "-Infinity" else "Infinity").toList
  else x.text

private def boolText (b : Bool) : List Char :=
  if b then "true".toList else "false".toList

def scalarText : Scalar → Except WriteFault (List Char)
  | .null => .ok "null".toList
  | .bool b => .ok (boolText b)
  | .int n => intText n
  | .float x => .ok (floatText x)
  | .text s => .ok (Text.quoteAscii s.toList)
  | .date _ => .error (.value "date")
  | .time _ => .error (.value "time")
  | .timestamp _ => .error (.value "datetime")

/-- A member's name; scalars that are not texts are named by their text. -/
def nameText : Scalar → Except WriteFault (List Char)
  | .null => .ok "\"null\"".toList
  | .bool b => .ok ('"' :: boolText b ++ ['"'])
  | .int n => do return '"' :: (← intText n) ++ ['"']
  | .float x => .ok ('"' :: floatText x ++ ['"'])
  | .text s => .ok (Text.quoteAscii s.toList)
  | .date _ => .error (.name "date")
  | .time _ => .error (.name "time")
  | .timestamp _ => .error (.name "datetime")

mutual
def valueText : Value → Except WriteFault (List Char)
  | .scalar s => scalarText s
  | .list items => do return '[' :: Text.joinWith [',', ' '] (← itemTexts items) ++ [']']
  | .object members => do
      return '\x7b' :: Text.joinWith [',', ' '] (← memberTexts members) ++ ['\x7d']

def itemTexts : List Value → Except WriteFault (List (List Char))
  | [] => .ok []
  | item :: rest => do return (← valueText item) :: (← itemTexts rest)

def memberTexts : List (Scalar × Value) → Except WriteFault (List (List Char))
  | [] => .ok []
  | (name, value) :: rest => do
      return ((← nameText name) ++ ':' :: ' ' :: (← valueText value)) :: (← memberTexts rest)
end

def write (value : Value) : Except WriteFault String :=
  (valueText value).map String.ofList

end ApiCompiler.Json

namespace ApiCompiler

/-- A value as an input shows it: a text as it is, a scalar by its text, anything else as JSON. -/
def Value.display : Value → Except Json.WriteFault String
  | .scalar (.text s) => .ok s
  | .scalar (.bool b) => .ok (if b then "true" else "false")
  | .scalar (.int n) => (Json.intText n).map String.ofList
  | .scalar (.float x) => .ok (String.ofList x.text)
  | value => Json.write value

end ApiCompiler
