import ApiCompiler.Loading.Survey

/-!
Cycles of references: the targets that a target leads to and that lead back to it. A search from one
target finds the cycles of all that it leads to, and goes no further where they are known already.
-/

namespace ApiCompiler.Loading

/-- Targets with the cycle that each of them lies on, which is empty if there is none. -/
abbrev Cycles := List (String × List String)

/-- Some targets lie on one cycle, or on none. -/
def Cycles.record (cycles : Cycles) (members cycle : List String) : Cycles :=
  members.map (fun member => (member, cycle)) ++ cycles

/--
A search underway. The targets it has met are numbered in the order they were met. The stack holds those
of which the cycle is not known yet, and the path those of which some references, given with them, may
have to be followed still; both have the newest first. Of a target on the path, the low number is the
least one that is known to be reached from it.
-/
structure Search where
  cycles : Cycles
  index : List (String × Nat) := []
  low : List (String × Nat) := []
  stack : List String := []
  path : List (String × List String) := []

namespace Search

def indexOf (search : Search) (key : String) : Nat :=
  (search.index.lookup key).getD 0

def lowOf (search : Search) (key : String) : Nat :=
  (search.low.lookup key).getD 0

def enter (next : String → List String) (search : Search) (key : String) : Search :=
  let number := search.index.length
  { search with
    index := (key, number) :: search.index
    low := (key, number) :: search.low
    stack := key :: search.stack
    path := (key, next key) :: search.path }

/-- A number is reached from a target on the path. -/
def lower (search : Search) (key : String) (number : Nat) : Search :=
  { search with low := (key, min (search.lowOf key) number) :: search.low }

/-- The cycle that some targets make up, the last of which is on none if it is alone. -/
def cycleAmong (next : String → List String) (members : List String) (key : String) : List String :=
  if members.length = 1 && !(next key).contains key then [] else members

/-- The cycle of the targets on the stack, down to one of them, is known. -/
def close (next : String → List String) (search : Search) (key : String) : Search :=
  let members := search.stack.takeWhile (· ≠ key) ++ [key]
  { search with
    cycles := search.cycles.record members (cycleAmong next members key)
    stack := (search.stack.dropWhile (· ≠ key)).tail }

/-- The target before another one on the path reaches what that one does. -/
def pass (search : Search) (key : String) : (path : List (String × List String)) → Search
  | [] => search
  | (parent, _) :: _ => search.lower parent (search.lowOf key)

def leave (next : String → List String) (search : Search) (key : String)
    (path : List (String × List String)) : Search :=
  let search := { search.pass key path with path }
  if search.lowOf key = search.indexOf key then search.close next key else search

/-- Follows one reference of the newest target on the path, or goes back if there is none left. -/
def step (next : String → List String) (search : Search) : Search :=
  match search.path with
  | [] => search
  | (key, []) :: path => search.leave next key path
  | (key, link :: links) :: path =>
      let search := { search with path := (key, links) :: path }
      if (search.cycles.lookup link).isSome then search
      else if (search.index.lookup link).isNone then search.enter next link
      else if search.stack.contains link then search.lower key (search.indexOf link)
      else search

def run (next : String → List String) : (steps : Nat) → Search → Search
  | 0, search => search
  | steps + 1, search => if search.path.isEmpty then search else run next steps (search.step next)

end Search

namespace Survey

/-- Each reference is followed at most once, and leads to at most one target to come back from. -/
def enoughSteps (survey : Survey) : Nat :=
  1 + 2 * (survey.edges.flatMap Prod.snd).length

def search (survey : Survey) (cycles : Cycles) (start : String) : Search :=
  Search.run survey.successors survey.enoughSteps
    (Search.enter survey.successors { cycles } start)

/-- The known cycles, with that of a target and what is found on the way to it. -/
def findCycle (survey : Survey) (cycles : Cycles) (start : String) : Cycles :=
  if (cycles.lookup start).isSome then cycles else (survey.search cycles start).cycles

def cycles (survey : Survey) : Cycles :=
  (survey.edges.map Prod.fst).foldl survey.findCycle []

/-- The targets that lie on a cycle with a target, which is one of them if it lies on any. -/
def cycleOf (survey : Survey) (key : String) : List String :=
  (survey.cycles.lookup key).getD []

end Survey

end ApiCompiler.Loading
