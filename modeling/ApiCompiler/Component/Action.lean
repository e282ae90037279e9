import ApiCompiler.Component.Input

/-!
Actions of a component: what a user sees of one, its inputs, and the request it makes.
-/

namespace ApiCompiler.Component

structure Binding where
  key : String
  wireName : String
  deriving DecidableEq

namespace Binding

def check : Value → Check Binding :=
  Shape.record "KeyMapping" fun m =>
    (fun key wireName () => Binding.mk key wireName) <$> m.required ["key"] Shape.text <*>
      m.required ["upstream_key"] Shape.text <*> m.noExtras [["key"], ["upstream_key"]]

def plain (b : Binding) : Value :=
  .record [("key", .text b.key), ("upstream_key", .text b.wireName)]

def ofInput (input : Input) : Binding :=
  ⟨input.key, input.wireName⟩

end Binding

/-- The request an action makes: its path has the keys of inputs as interpolations. -/
structure RequestPlan where
  verb : String
  path : String
  arguments : List String := []
  body : Option (List Binding) := none
  query : Option (List Binding) := none
  deriving DecidableEq

namespace RequestPlan

def check : Value → Check RequestPlan :=
  Shape.record "PerformPlan" fun m =>
    (fun verb path arguments body query () =>
      { verb, path, arguments := Option.getD arguments [], body := Member.toOption body,
        query := Member.toOption query }) <$>
      m.required ["verb"] Shape.text <*> m.required ["path"] Shape.text <*>
      m.optional ["arguments"] (Shape.tuple Shape.text) <*>
      m.nullable ["body"] (Shape.tuple Binding.check) <*>
      m.nullable ["query"] (Shape.tuple Binding.check) <*>
      m.noExtras [["verb"], ["path"], ["arguments"], ["body"], ["query"]]

def plain (p : RequestPlan) : Value :=
  let bindings (list : List Binding) : Value := .list (list.map Binding.plain)
  .record ([("verb", .text p.verb), ("path", .text p.path),
      ("arguments", .list (p.arguments.map .text))] ++
    set "body" bindings p.body ++ set "query" bindings p.query)

end RequestPlan

structure Display where
  label : String
  description : String
  deriving DecidableEq

namespace Display

def check : Value → Check Display :=
  Shape.record "ActionDisplay" fun m =>
    (fun label description () => Display.mk label description) <$>
      m.required ["label"] Shape.text <*> m.required ["description"] Shape.text <*>
      m.noExtras [["label"], ["description"]]

def plain (d : Display) : Value :=
  .record [("label", .text d.label), ("description", .text d.description)]

end Display

structure Action where
  key : String
  groupTag : String
  display : Display
  inputs : List (String × Input)
  request : RequestPlan
  deriving DecidableEq

namespace Action

def check : Value → Check Action :=
  Shape.record "Action" fun m =>
    (fun key groupTag display inputs request () =>
      Action.mk key groupTag display inputs request) <$>
      m.required ["key"] Shape.text <*> m.required ["group_tag"] Shape.text <*>
      m.required ["display"] Display.check <*>
      m.required ["inputs"] (Shape.dictionary Input.check) <*>
      m.required ["perform"] RequestPlan.check <*>
      m.noExtras [["key"], ["group_tag"], ["display"], ["inputs"], ["perform"]]

def plain (a : Action) : Value :=
  .record [("key", .text a.key), ("group_tag", .text a.groupTag), ("display", a.display.plain),
    ("inputs", plainPairs Input.plain a.inputs), ("perform", a.request.plain)]

end Action

end ApiCompiler.Component
