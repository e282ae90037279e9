import ApiCompiler.Tree.Value

/-!
Environment variables in settings. A text is cut once, from left to right, into references and the
characters between them; what a variable's value holds is never looked at again.
-/

namespace ApiCompiler

/-- Variables and their values; a name that is not there is not set. -/
abbrev Environment := List (String × String)

namespace Variables

/-- A part of a text: a character that stands for itself, or a reference to a variable. -/
inductive Piece
  | plain (c : Char)
  | reference (name : String)
  deriving DecidableEq

def isNameStart (c : Char) : Bool :=
  c.isAlpha || c = '_'

def isNameChar (c : Char) : Bool :=
  c.isAlphanum || c = '_'

/-- The name between the braces of a reference, from after its opening brace on. -/
def name? (text : List Char) : Option (List Char) :=
  let name := text.takeWhile isNameChar
  match name, text.drop name.length with
  | first :: _, '\x7d' :: _ => if isNameStart first then some name else none
  | _, _ => none

/-- The pieces of a text of which a number of characters belong to the reference before it. -/
def piecesFrom : (skip : Nat) → List Char → List Piece
  | _, [] => []
  | skip + 1, _ :: rest => piecesFrom skip rest
  | 0, '$' :: '\x7b' :: rest =>
      match name? rest with
      | some name => .reference (String.ofList name) :: piecesFrom (name.length + 2) ('\x7b' :: rest)
      | none => .plain '$' :: piecesFrom 0 ('\x7b' :: rest)
  | 0, c :: rest => .plain c :: piecesFrom 0 rest

def pieces (text : List Char) : List Piece :=
  piecesFrom 0 text

/-- What a piece stands for, or the name of the variable that is not set. -/
def Piece.expand (environment : Environment) : Piece → Except String (List Char)
  | .plain c => .ok [c]
  | .reference name =>
      match environment.lookup name with
      | some value => .ok value.toList
      | none => .error name

def expandText (environment : Environment) (text : String) : Except String String := do
  return String.ofList (← (pieces text.toList).mapM (Piece.expand environment)).flatten

def expandScalar (environment : Environment) : Scalar → Except String Scalar
  | .text s => .text <$> expandText environment s
  | scalar => .ok scalar

mutual
/-- Expands every text in a value but the names of members; the error is the first unset variable. -/
def expand (environment : Environment) : Value → Except String Value
  | .scalar s => .scalar <$> expandScalar environment s
  | .list items => .list <$> expandItems environment items
  | .object members => .object <$> expandMembers environment members

def expandItems (environment : Environment) : List Value → Except String (List Value)
  | [] => .ok []
  | item :: rest => List.cons <$> expand environment item <*> expandItems environment rest

def expandMembers (environment : Environment) :
    List (Scalar × Value) → Except String (List (Scalar × Value))
  | [] => .ok []
  | (name, value) :: rest =>
      (fun value rest => (name, value) :: rest) <$> expand environment value <*>
        expandMembers environment rest
end

end Variables

end ApiCompiler
