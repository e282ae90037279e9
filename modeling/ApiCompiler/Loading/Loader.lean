import ApiCompiler.Loading.Content
import ApiCompiler.Loading.Inlining
import ApiCompiler.Openapi.Document
import ApiCompiler.Tree.Shown

/-!
Loading descriptions: reading a document, checking its version, inlining its references, and
checking that it is a description. A loader reads no document twice.
-/

namespace ApiCompiler

open Openapi

structure Loader where
  followsExternal : Bool := true
  followsRedirections : Bool := true
  documents : List (String × Value) := []

namespace Loading

structure Work where
  loader : Loader
  world : World

end Loading

abbrev Loading (α : Type) := ExceptT Problem (StateM Loading.Work) α

namespace Loading

def surroundings (work : Work) : Surroundings :=
  { content := content work.world work.loader.followsRedirections
    followsExternal := work.loader.followsExternal
    workingDirectory := work.world.disk.workingDirectory }

/-- The tree at a location, with its references as they are. -/
def loadRaw (location : String) : Loading Value := do
  let work ← get
  match work.loader.documents.lookup location with
  | some value => return value
  | none =>
      match content work.world work.loader.followsRedirections location with
      | .error problem => throw problem
      | .ok value =>
          let documents := work.loader.documents ++ [(location, value)]
          set { work with loader := { work.loader with documents } }
          return value

/-- A document read from a location, with its references inlined, unless a limit is exceeded. -/
def dereferenceWithin (limit : Nat) (document : Value) (location : Option String) :
    Loading Expansion :=
  ExceptT.mk fun work =>
    let around := surroundings work
    let (result, bench) :=
      (Expanding.document around limit document location).run
        { survey := { documents := work.loader.documents } }
    (result,
      { loader := { work.loader with documents := bench.survey.documents }
        world := { work.world with log := work.world.log ++ bench.shelf.log } })

def dereference (document : Value) (location : Option String) : Loading Expansion :=
  dereferenceWithin Survey.standardLimit document location

def validate (document : Expansion) (source : String) : Except Problem Document :=
  match Document.check document with
  | .ok document => .ok document
  | .bad issues => .error (.declared (.validation source (issues.map Issue.line)))

/-- Only descriptions of major version three are read. -/
def checkVersion (document : Value) (source : String) : Except Problem Unit :=
  match document with
  | .object _ =>
      match document.member? "swagger" with
      | some version =>
          if !version.isShowable then .error (.undeclared (.unwritable .digits))
          else
            .error (.declared (.unsupported
              ("Swagger " ++ version.shown ++ " document '" ++ source ++ "'")
              (some "Convert the document to OpenAPI 3 first")))
      | none =>
          let given := document.member? "openapi"
          let version := (given.map Value.shown).getD ""
          if !given.all Value.isShowable then .error (.undeclared (.unwritable .digits))
          else if version.startsWith "3." then .ok ()
          else
            let named := if version.isEmpty then "unknown" else version
            .error (.declared (.unsupported
              ("OpenAPI version '" ++ named ++ "' in '" ++ source ++ "'")
              (some "Only OpenAPI 3.0 and 3.1 documents are supported")))
  | _ => .error (.declared (.validation source ["document is not an object"]))

/-- The location of a source: a web address as it is, a file by its path from the root. -/
def locationOf (workingDirectory : Place) (source : String) : Except UrlFault String :=
  if Url.isWeb source then .ok source else resolved workingDirectory (.ofText source)

/-- The description at the location of a source. -/
def loadAt (source location : String) : Loading Document := do
  let document ← loadRaw location
  match checkVersion document source with
  | .error problem => throw problem
  | .ok _ =>
      let expansion ← dereference document (some location)
      match validate expansion source with
      | .ok document => return document
      | .error problem => throw problem

def load (source : String) : Loading Document := do
  match locationOf (← get).world.disk.workingDirectory source with
  | .error fault => throw (.undeclared (.address fault))
  | .ok location => loadAt source location

end Loading

/-- Runs a loader, which is gone afterwards. -/
def Loader.run {α : Type} (loader : Loader) (computation : Loading α) : Run α :=
  ExceptT.mk fun world =>
    let (result, work) := StateT.run (ExceptT.run computation) { loader, world }
    (result, work.world)

end ApiCompiler
