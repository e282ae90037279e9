/-!
Validation results. A check either gives a value or all the issues it found; combining two checks
keeps the issues of both, so that one pass reports everything.
-/

namespace ApiCompiler

inductive IssueKind
  | missing
  | text
  | list
  | object
  | tuple
  | record (name : String)
  | truth
  | truthText
  | integer
  | integerText
  | fraction
  | finite
  | negative
  | choice
  | extra
  | memberName
  deriving DecidableEq

namespace IssueKind

def code : IssueKind → String
  | .missing => "missing"
  | .text => "string_type"
  | .list => "list_type"
  | .object => "dict_type"
  | .tuple => "tuple_type"
  | .record _ => "model_type"
  | .truth => "bool_type"
  | .truthText => "bool_parsing"
  | .integer => "int_type"
  | .integerText => "int_parsing"
  | .fraction => "int_from_float"
  | .finite => "finite_number"
  | .negative => "greater_than_equal"
  | .choice => "enum"
  | .extra => "extra_forbidden"
  | .memberName => "invalid_key"

def message : IssueKind → String
  | .missing => "Field required"
  | .text => "Input should be a valid string"
  | .list => "Input should be a valid list"
  | .object => "Input should be a valid dictionary"
  | .tuple => "Input should be a valid tuple"
  | .record name => "Input should be a valid dictionary or instance of " ++ name
  | .truth => "Input should be a valid boolean"
  | .truthText => "Input should be a valid boolean, unable to interpret input"
  | .integer => "Input should be a valid integer"
  | .integerText => "Input should be a valid integer, unable to parse string as an integer"
  | .fraction => "Input should be a valid integer, got a number with a fractional part"
  | .finite => "Input should be a finite number"
  | .negative => "Input should be greater than or equal to 0"
  | .choice => "Input should be 'AuthorizationCode' or 'ClientCredentials'"
  | .extra => "Extra inputs are not permitted"
  | .memberName => "Keys should be strings"

end IssueKind

/-- An issue with the path that leads to it: member names and positions. -/
structure Issue where
  path : List String
  kind : IssueKind
  deriving DecidableEq

/-- The issue in one line: its path joined with points, and its message. -/
def Issue.line (issue : Issue) : String :=
  String.intercalate "." issue.path ++ ": " ++ issue.kind.message

inductive Check (α : Type)
  | ok (value : α)
  | bad (issues : List Issue)

namespace Check

variable {α β : Type}

def fail (kind : IssueKind) : Check α :=
  .bad [⟨[], kind⟩]

def map (f : α → β) : Check α → Check β
  | .ok a => .ok (f a)
  | .bad issues => .bad issues

/-- Both results, or the issues of both sides in order. -/
def seq : Check (α → β) → Check α → Check β
  | .ok f, .ok a => .ok (f a)
  | .ok _, .bad issues => .bad issues
  | .bad issues, .ok _ => .bad issues
  | .bad first, .bad second => .bad (first ++ second)

instance : Applicative Check where
  pure := .ok
  map := map
  seq f a := seq f (a ())

def andThen : Check α → (α → Check β) → Check β
  | .ok a, f => f a
  | .bad issues, _ => .bad issues

/-- The check with its issues placed below a member or position. -/
def within (step : String) : Check α → Check α
  | .ok a => .ok a
  | .bad issues => .bad (issues.map fun issue => { issue with path := step :: issue.path })

def all : List (Check α) → Check (List α)
  | [] => .ok []
  | first :: rest => seq (map List.cons first) (all rest)

def toExcept : Check α → Except (List Issue) α
  | .ok a => .ok a
  | .bad issues => .error issues

end Check

end ApiCompiler
