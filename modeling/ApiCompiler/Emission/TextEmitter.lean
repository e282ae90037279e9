import ApiCompiler.Tree.Named

/-!
Keeping texts instead of writing them.
-/

namespace ApiCompiler

structure TextEmitter where
  texts : Named String := []
  deriving DecidableEq

namespace TextEmitter

/-- Keeps texts, in place of those kept under the same names; the names of the new ones are told. -/
def emit (emitter : TextEmitter) (texts : List (String × String)) : List String × TextEmitter :=
  let texts := Named.ofList texts
  (texts.map Prod.fst, ⟨emitter.texts.override texts⟩)

def text? (emitter : TextEmitter) (name : String) : Option String :=
  emitter.texts.lookup name

end TextEmitter

end ApiCompiler
