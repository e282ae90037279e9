import ApiCompiler.Validation.Shape

/-!
Inputs of actions and connections. A field that is not set has one representation, `none`.
-/

namespace ApiCompiler.Component

/-- A member of a node's plain form, left out when it is not set. -/
def set {α : Type} (name : String) (f : α → Value) : Option α → List (String × Value)
  | none => []
  | some value => [(name, f value)]

structure Choice where
  label : String
  value : String
  deriving DecidableEq

namespace Choice

def check : Value → Check Choice :=
  Shape.record "InputChoice" fun m =>
    (fun label value () => Choice.mk label value) <$> m.required ["label"] Shape.text <*>
      m.required ["value"] Shape.text <*> m.noExtras [["label"], ["value"]]

def plain (c : Choice) : Value :=
  .record [("label", .text c.label), ("value", .text c.value)]

end Choice

/-- The conversion of what the user enters; with `coalesce`, an empty result counts as not given. -/
structure Conversion where
  name : String
  coalesce : Bool := false
  deriving DecidableEq

namespace Conversion

def check : Value → Check Conversion :=
  Shape.record "CleanFunction" fun m =>
    (fun name coalesce () => Conversion.mk name (coalesce.getD false)) <$>
      m.required ["name"] Shape.text <*> m.optional ["coalesce"] Shape.truth <*>
      m.noExtras [["name"], ["coalesce"]]

def plain (c : Conversion) : Value :=
  .record [("name", .text c.name), ("coalesce", .bool c.coalesce)]

end Conversion

/-- An input of an action: the name the interface expects, and the key that stands for it. -/
structure Input where
  wireName : String
  key : String
  label : String
  type : String
  required : Option Bool := none
  comments : Option String := none
  default : Option String := none
  sample : Option String := none
  choices : Option (List Choice) := none
  conversion : Option Conversion := none
  deriving DecidableEq

namespace Input

/-- Blank comments and an empty list of choices are not set. -/
def tidy (input : Input) : Input :=
  { input with
    comments := input.comments.filter fun text => !text.trimBlanks.isEmpty
    choices := input.choices.filter fun choices => !choices.isEmpty }

def check : Value → Check Input :=
  Shape.record "Input" fun m =>
    let nullable (name : String) := m.nullable [name] Shape.text
    (fun wireName key label type required comments default sample choices conversion () =>
      tidy { wireName, key, label, type, required := Member.toOption required,
             comments := Member.toOption comments, default := Member.toOption default,
             sample := Member.toOption sample, choices := Member.toOption choices,
             conversion := Member.toOption conversion }) <$>
      m.required ["upstream_key"] Shape.text <*> m.required ["key"] Shape.text <*>
      m.required ["label"] Shape.text <*> m.required ["type"] Shape.text <*>
      m.nullable ["required"] Shape.truth <*> nullable "comments" <*> nullable "default" <*>
      nullable "example" <*> m.nullable ["model"] (Shape.tuple Choice.check) <*>
      m.nullable ["clean"] Conversion.check <*>
      m.noExtras [["upstream_key"], ["key"], ["label"], ["type"], ["required"], ["comments"],
        ["default"], ["example"], ["model"], ["clean"]]

def plain (input : Input) : Value :=
  .record ([("upstream_key", .text input.wireName), ("key", .text input.key),
      ("label", .text input.label), ("type", .text input.type)] ++
    set "required" .bool input.required ++ set "comments" .text input.comments ++
    set "default" .text input.default ++ set "example" .text input.sample ++
    set "model" (fun choices => .list (choices.map Choice.plain)) input.choices ++
    set "clean" Conversion.plain input.conversion)

end Input

structure Credential where
  label : String
  type : String
  required : Option Bool := none
  shown : Option Bool := none
  default : Option String := none
  comments : Option String := none
  placeholder : Option String := none
  sample : Option String := none
  deriving DecidableEq

namespace Credential

def check : Value → Check Credential :=
  Shape.record "ConnectionInput" fun m =>
    let nullable (name : String) := m.nullable [name] Shape.text
    (fun label type required shown default comments placeholder sample () =>
      { label, type, required := Member.toOption required, shown := Member.toOption shown,
        default := Member.toOption default, comments := Member.toOption comments,
        placeholder := Member.toOption placeholder, sample := Member.toOption sample }) <$>
      m.required ["label"] Shape.text <*> m.required ["type"] Shape.text <*>
      m.nullable ["required"] Shape.truth <*> m.nullable ["shown"] Shape.truth <*>
      nullable "default" <*> nullable "comments" <*> nullable "placeholder" <*>
      nullable "example" <*>
      m.noExtras [["label"], ["type"], ["required"], ["shown"], ["default"], ["comments"],
        ["placeholder"], ["example"]]

def plain (c : Credential) : Value :=
  .record ([("label", .text c.label), ("type", .text c.type)] ++
    set "required" .bool c.required ++ set "shown" .bool c.shown ++
    set "default" .text c.default ++ set "comments" .text c.comments ++
    set "placeholder" .text c.placeholder ++ set "example" .text c.sample)

end Credential

def plainPairs {α : Type} (f : α → Value) (pairs : List (String × α)) : Value :=
  .list (pairs.map fun (name, part) => .list [.text name, f part])

end ApiCompiler.Component
