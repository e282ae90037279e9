import ApiCompiler.Loading.Cycle
import ApiCompiler.Openapi.Expansion

/-!
Inlining: every reference that leads somewhere gives way to its target. A target is expanded once and
shared by all references to it. Within a cycle of references, a reference back into the cycle gives
way to its target without nested schemas, except that schemas which a schema is composed of are
inlined in full once, so that their properties reach it.
-/

namespace ApiCompiler.Loading

open Openapi

def compositionKeys : List String := ["allOf", "oneOf", "anyOf"]

/-- Members that hold nested schemas, left out where a cycle ends. -/
def nestedSchemaKeys : List String :=
  ["$ref", "properties", "additionalProperties", "patternProperties", "items", "prefixItems",
    "allOf", "oneOf", "anyOf", "not"]

/--
How an expansion of a target stands: the cycle that the target lies on, the targets of the cycle
inlined on the way from it, and whether there was nothing but composition on that way.
-/
structure Scope where
  cycle : List String
  inlined : List String
  composing : Bool

def Scope.within (scope : Scope) (name : Scalar) : Scope :=
  let isComposition :=
    match name with
    | .text name => compositionKeys.contains name
    | _ => false
  { scope with composing := scope.composing && isComposition }

/-- What is done with a reference: its scope, its object, its text, and its expanded siblings. -/
abbrev Follow (m : Type → Type) :=
  Option Scope → Members Value → String → m (Members Expansion) → m Expansion

section Walk

variable {m : Type → Type} [Monad m]

mutual
def walk (follow : Follow m) (scope : Option Scope) : Value → m Expansion
  | .scalar s => pure (.scalar s)
  | .list items => .list <$> walkItems follow scope items
  | .object members =>
      match reference? members with
      | some reference => follow scope members reference (walkMembers follow scope true members)
      | none => .ofMembers <$> walkMembers follow scope false members

def walkItems (follow : Follow m) (scope : Option Scope) : List Value → m (List Expansion)
  | [] => pure []
  | item :: rest => do
      let first ← walk follow scope item
      return first :: (← walkItems follow scope rest)

/-- The members of an object, without its reference if only the siblings are asked for. -/
def walkMembers (follow : Follow m) (scope : Option Scope) (siblings : Bool) :
    List (Scalar × Value) → m (List (Scalar × Expansion))
  | [] => pure []
  | (name, value) :: rest =>
      if siblings && name = .text referenceKey then walkMembers follow scope siblings rest
      else do
        let first ← walk follow (scope.map (Scope.within · name)) value
        return (name, first) :: (← walkMembers follow scope siblings rest)
end

/-- Siblings of a reference override the members of its target, if that is an object. -/
def overlay (node : Members Value) (siblings : m (Members Expansion)) :
    Expansion → m Expansion
  | .object members plain schema => do
      if node.length ≤ 1 then return .object members plain schema
      else return .ofMembers (Members.override members (← siblings))
  | expansion => return expansion

end Walk

/-- The targets expanded and cut short so far, and what there is to tell. -/
structure Shelf where
  expanded : List (String × Expansion) := []
  truncated : List (String × Expansion) := []
  log : Log := #[]

abbrev Inlining (α : Type) := ExceptT Problem (StateM Shelf) α

namespace Inlining

def warn (message : String) : Inlining Unit :=
  modify fun shelf => { shelf with log := shelf.log.push ⟨.warning, .loading, message⟩ }

/-- The reference that is kept as it is when it leads nowhere, with a warning if it should not. -/
def keep (node : Members Value) (reference : String) : Lookup → Inlining Expansion
  | .unloadable => do
      warn ("Failed to resolve external reference: " ++ reference)
      return .ofValue (.object node)
  | .dangling message => do
      warn ("Failed to resolve reference " ++ reference ++ ": " ++ message)
      return .ofValue (.object node)
  | .broken problem => throw problem
  | .external | .found _ => return .ofValue (.object node)

def withoutNested : Value → Value
  | .object members =>
      .object (members.filter fun (name, _) =>
        match name with
        | .text name => !nestedSchemaKeys.contains name
        | _ => true)
  | value => value

/-- A target cut short; the first time, the reference that led to it is told about. -/
def truncate (key reference : String) (target : Target) : Inlining Expansion := do
  match (← get).truncated.lookup key with
  | some expansion => return expansion
  | none =>
      warn ("Circular reference detected: " ++ reference)
      let expansion := Expansion.ofValue (withoutNested target.value)
      modify fun shelf => { shelf with truncated := (key, expansion) :: shelf.truncated }
      return expansion

/-- The expansion of a target, worked out the first time it is asked for. -/
def expandTarget (survey : Survey) (follow : Target → Follow Inlining) (key : String)
    (target : Target) : Inlining Expansion := do
  match (← get).expanded.lookup key with
  | some expansion => return expansion
  | none =>
      let scope := { cycle := survey.cycleOf key, inlined := [key], composing := true }
      let expansion ← walk (follow target) (some scope) target.value
      modify fun shelf => { shelf with expanded := (key, expansion) :: shelf.expanded }
      return expansion

/-- Follows a reference written in the document of a target, so many of them inside each other. -/
def followIn (around : Surroundings) (survey : Survey) :
    (depth : Nat) → Target → Follow Inlining
  | 0, _, _, _, _, _ => throw (.undeclared .exhausted)
  | depth + 1, home, scope, node, reference, siblings => do
      match survey.find around home.location reference with
      | .found key =>
          match survey.target? key with
          | none => return .ofValue (.object node)
          | some target =>
              let follow := followIn around survey depth
              let scope := scope.getD { cycle := [], inlined := [], composing := false }
              if !scope.cycle.contains key then
                overlay node siblings (← expandTarget survey follow key target)
              else if scope.composing && !scope.inlined.contains key then
                let inner := { scope with inlined := key :: scope.inlined }
                overlay node siblings (← walk (follow target) (some inner) target.value)
              else overlay node siblings (← truncate key reference target)
      | lookup => keep node reference lookup

/--
How many references are followed inside each other at most. A target that is expanded inside its own
expansion would be for ever, and within one expansion none is inlined twice.
-/
def greatestDepth (survey : Survey) : Nat :=
  survey.targets.length * survey.targets.length

/-- The expansion of a target of a survey that has explored all it leads to. -/
def expand (around : Surroundings) (survey : Survey) (key : String) (target : Target) :
    Inlining Expansion :=
  expandTarget survey (followIn around survey (greatestDepth survey)) key target

end Inlining

structure Bench where
  survey : Survey
  shelf : Shelf := {}

abbrev Expanding (α : Type) := ExceptT Problem (StateM Bench) α

namespace Expanding

def ofInlining {α : Type} (computation : Inlining α) : Expanding α :=
  ExceptT.mk fun bench =>
    let (result, shelf) := computation.run bench.shelf
    (result, { bench with shelf })

def ofSurveying {α : Type} (computation : Surveying α) : Expanding α :=
  ExceptT.mk fun bench =>
    let (result, survey) := computation.run bench.survey
    (result, { bench with survey })

/-- Follows a reference written in the document itself: explores its target, then expands it. -/
def followRoot (around : Surroundings) (limit : Nat) (root : Value) (location : Option String) :
    Follow Expanding
  | _, node, reference, siblings => do
      match ← ofSurveying (Survey.look around root location reference) with
      | .found key =>
          ofSurveying (Survey.explore around limit [key])
          let survey := (← get).survey
          match survey.target? key with
          | none => return .ofValue (.object node)
          | some target =>
              overlay node siblings (← ofInlining (Inlining.expand around survey key target))
      | lookup => ofInlining (Inlining.keep node reference lookup)

def document (around : Surroundings) (limit : Nat) (root : Value) (location : Option String) :
    Expanding Expansion :=
  walk (followRoot around limit root location) none root

end Expanding

end ApiCompiler.Loading
