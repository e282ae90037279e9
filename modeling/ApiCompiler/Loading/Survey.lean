import ApiCompiler.Location.Url
import ApiCompiler.Openapi.Reference
import ApiCompiler.Tree.Pointer
import ApiCompiler.World.Basic

/-!
The references of a set of documents: where each of them leads, and which targets refer to which. A
survey is made before anything is expanded, so that expansion itself needs no documents. A reference
that leads nowhere is passed over, unless what is wrong with its document is handled by nobody.
-/

namespace ApiCompiler.Loading

open Openapi (referenceKey)

def reference? (members : Members Value) : Option String :=
  (members.find? referenceKey).bind Value.text?

/-- What can be found out about other documents. -/
structure Surroundings where
  content : String → Except Problem Value
  followsExternal : Bool
  workingDirectory : Place

/-- A value that references lead to, and the document it is part of. -/
structure Target where
  value : Value
  root : Value
  location : Option String

/-- The documents read, the targets met, and for those explored the targets they refer to. -/
structure Survey where
  documents : List (String × Value) := []
  targets : List (String × Target) := []
  edges : List (String × List String) := []

/-- The parts of a reference: the address of a document, empty for its own, and a pointer into it. -/
def splitReference (reference : String) : String × String :=
  let (address, pointer) := Text.cut '#' reference.toList
  (String.ofList address, String.ofList (pointer.getD []))

def targetKey (location : Option String) (pointer : String) : String :=
  location.getD "None" ++ "#" ++ pointer

/-- The path from the root that a path stands for. -/
def resolved (workingDirectory : Place) (path : FilePath) : Except UrlFault String :=
  if path.segments.any fun name => name.toList.contains '\x00' then .error .nullCharacter
  else .ok (FilePath.absolute (path.resolveFrom workingDirectory)).text

/-- The location that an address stands for in a document at a location. -/
def joinLocation (workingDirectory : Place) (base : Option String) (address : String) :
    Except UrlFault String :=
  let base := base.filter fun text => !text.isEmpty
  if Url.isWeb address then .ok address
  else
    match base.filter Url.isWeb with
    | some url => Url.join url address
    | none =>
        let folder := (base.map fun text => (FilePath.ofText text).parent).getD (.ofText ".")
        resolved workingDirectory (folder.join (.ofText address))

inductive Lookup
  | found (key : String)
  | external
  | unloadable
  | dangling (message : String)
  /-- Following it breaks down. -/
  | broken (problem : Problem)
  deriving DecidableEq

/-- What becomes of a reference into a document with which there is a problem. -/
def Lookup.ofProblem : Problem → Lookup
  | .declared (.load ..) => .unloadable
  | .declared failure => .broken (.declared failure)
  | .undeclared breakdown =>
      if breakdown.isOfValue then .dangling breakdown.message else .broken (.undeclared breakdown)

/-- The document a reference points into, as far as its address tells. -/
inductive Address
  | own
  | other (location : String)
  | disabled
  | faulty (fault : UrlFault)

def addressOf (around : Surroundings) (location : Option String) (address : String) : Address :=
  if address.isEmpty then .own
  else if !around.followsExternal then .disabled
  else
    match joinLocation around.workingDirectory location address with
    | .ok other => .other other
    | .error fault => .faulty fault

namespace Survey

def target? (survey : Survey) (key : String) : Option Target :=
  survey.targets.lookup key

def successors (survey : Survey) (key : String) : List String :=
  (survey.edges.lookup key).getD []

def withDocument (survey : Survey) (around : Surroundings) (location : String) : Survey :=
  match survey.documents.lookup location, around.content location with
  | none, .ok value => { survey with documents := survey.documents ++ [(location, value)] }
  | _, _ => survey

/-- The survey with the target at a pointer, if there is one; a target once met stays as it is. -/
def withTarget (survey : Survey) (root : Value) (location : Option String) (pointer : String) :
    Survey :=
  let key := targetKey location pointer
  match survey.target? key, Pointer.resolve? root pointer.toList with
  | none, some value =>
      { survey with targets := survey.targets ++ [(key, ⟨value, root, location⟩)] }
  | _, _ => survey

/-- The survey after a look at a reference in a document. -/
def enter (survey : Survey) (around : Surroundings) (root : Value) (location : Option String)
    (reference : String) : Survey :=
  let (address, pointer) := splitReference reference
  match addressOf around location address with
  | .own => survey.withTarget root location pointer
  | .other other =>
      let survey := survey.withDocument around other
      match survey.documents.lookup other with
      | some root => survey.withTarget root (some other) pointer
      | none => survey
  | .disabled | .faulty _ => survey

def findAt (survey : Survey) (location : Option String) (pointer : String) : Lookup :=
  let key := targetKey location pointer
  if (survey.target? key).isSome then .found key
  else .dangling (Breakdown.danglingPointer pointer).message

/-- Where a reference in a document leads, after the survey has entered it. -/
def find (survey : Survey) (around : Surroundings) (location : Option String)
    (reference : String) : Lookup :=
  let (address, pointer) := splitReference reference
  match addressOf around location address with
  | .own => survey.findAt location pointer
  | .disabled => .external
  | .faulty fault => .dangling fault.message
  | .other other =>
      match survey.documents.lookup other, around.content other with
      | some _, _ => survey.findAt (some other) pointer
      | none, .error problem => .ofProblem problem
      | none, .ok _ => .unloadable

end Survey

mutual
/-- The references in a value, whatever they lead to. -/
def referencesOf : Value → List String
  | .scalar _ => []
  | .list items => referencesOfItems items
  | .object members => (reference? members).toList ++ referencesOfMembers members

def referencesOfItems : List Value → List String
  | [] => []
  | item :: rest => referencesOf item ++ referencesOfItems rest

def referencesOfMembers : List (Scalar × Value) → List String
  | [] => []
  | (_, value) :: rest => referencesOf value ++ referencesOfMembers rest
end

/-- A survey underway, which keeps what it has read when it breaks down. -/
abbrev Surveying (α : Type) := ExceptT Problem (StateM Survey) α

namespace Survey

/-- Enters a reference in a document, and tells where it leads. -/
def look (around : Surroundings) (root : Value) (location : Option String) (reference : String) :
    Surveying Lookup := do
  modify fun survey => survey.enter around root location reference
  match (← get).find around location reference with
  | .broken problem => throw problem
  | lookup => return lookup

/-- The targets that references lead to which are written in the document of a target. -/
def lookAll (around : Surroundings) (home : Target) : List String → Surveying (List String)
  | [] => return []
  | reference :: rest => do
      match ← look around home.root home.location reference with
      | .found key => return key :: (← lookAll around home rest)
      | _ => lookAll around home rest

/-- Enters the references of a target and notes which targets they lead to. -/
def exploreTarget (around : Surroundings) (key : String) (target : Target) :
    Surveying (List String) := do
  let edges ← lookAll around target (referencesOf target.value)
  modify fun survey => { survey with edges := survey.edges ++ [(key, edges)] }
  return edges

/--
Explores everything that some targets lead to, the first of them with all it leads to before the
others. The limit is on the number of looks at a target; without it there is no end where one
document leads to another for ever.
-/
def explore (around : Surroundings) : (limit : Nat) → List String → Surveying Unit
  | _, [] => return
  | 0, _ :: _ => throw (.undeclared .exhausted)
  | limit + 1, key :: pending => do
      let survey ← get
      match survey.edges.lookup key, survey.target? key with
      | none, some target =>
          let edges ← exploreTarget around key target
          explore around limit (edges ++ pending)
      | _, _ => explore around limit pending

def standardLimit : Nat := 10000000

end Survey

end ApiCompiler.Loading
