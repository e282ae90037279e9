import ApiCompiler.Proofs.Derivation.Failures

/-!
What may go wrong when a blueprint is made of a description.
-/

namespace ApiCompiler.Derivation

open Openapi Component

/--
Why there is no blueprint: a reference is left, a security scheme has no counterpart, or there is no
address. Apart from these, a value or a number in a path may have no text.
-/
inductive IsAssemblyFault : Problem → Prop
  | document {problem : Problem} (fault : IsDocumentFault problem) : IsAssemblyFault problem
  | unsupported (construct : String) (suggestion : Option String) :
      IsAssemblyFault (.declared (.unsupported construct suggestion))
  | nowhere (context : Option String) : IsAssemblyFault (.declared (.missing "base URL" context))

theorem baseUrl_fails (document : Document) (fallback : Option String) :
    FailsWith IsAssemblyFault (baseUrl document fallback) := by
  rw [baseUrl]
  split
  · exact .ok _
  · exact .error (.nowhere _)

theorem connectionOf_fails (key : String) (scheme : SecurityScheme) :
    FailsWith IsAssemblyFault (connectionOf key scheme) := by
  rw [connectionOf]
  dsimp only
  split
  · exact .ok _
  · split
    · exact .ok _
    · split
      · split
        · exact .ok _
        · exact .error (.unsupported _ _)
      · exact .error (.unsupported _ _)

theorem buildConnection_fails (key : String) (node : Node SecurityScheme) :
    Logged.FailsWith IsAssemblyFault (buildConnection key node) := by
  have found (location : String) : FailsWith IsAssemblyFault (resolved node location) :=
    fun problem failed => .document (resolved_fails node location problem failed)
  exact (Logged.FailsWith.ofExcept (found _)).bind fun scheme =>
    (Logged.FailsWith.ofExcept (connectionOf_fails key scheme)).bind fun _ =>
      (Logged.FailsWith.note _ _ _).bind fun _ => .pure _

theorem buildConnections_fails (document : Document) :
    Logged.FailsWith IsAssemblyFault (buildConnections document) := by
  refine (Logged.FailsWith.foldlM (fun state entry => ?_) _ _).bind fun _ => .pure _
  refine (buildConnection_fails _ _).bind fun connection => ?_
  dsimp only
  split
  · exact (Logged.FailsWith.note _ _ _).bind fun _ => .pure _
  · exact .pure _

/-- Nothing else goes wrong, whatever the description. -/
theorem assemble_fails (document : Document) (fallback : Option String) (iconPath : String) :
    Logged.FailsWith IsAssemblyFault (assemble document fallback iconPath) := by
  have acted : Logged.FailsWith IsAssemblyFault (buildActions document) := fun log problem failed =>
    .document (buildActions_fails document log problem failed)
  exact (Logged.FailsWith.ofExcept (baseUrl_fails document fallback)).bind fun _ =>
    acted.bind fun _ => (buildConnections_fails document).bind fun _ =>
      (Logged.FailsWith.note _ _ _).bind fun _ => .pure _

/-! Values without a text do go wrong. -/

theorem display_of_unwritten {value : Value} {fault : Json.WriteFault}
    (unwritten : value.display = .error fault) :
    display value = .error (.undeclared (.unwritable fault)) := by
  rw [display, unwritten]
  rfl

theorem buildInput_of_unwritten {source : InputSource} {value : Value} {fault : Json.WriteFault}
    (given : source.schema.bind Schema.default = some value)
    (unwritten : value.display = .error fault) (seen : List String) :
    buildInput source seen = .error (.undeclared (.unwritable fault)) := by
  have shown : (some value).mapM display = .error (.undeclared (.unwritable fault)) := by
    rw [Option.mapM_some, display_of_unwritten unwritten]
    rfl
  rw [buildInput, given, shown]
  rfl

example (date : Date) : (Value.scalar (.date date)).display = .error (.value "date") := rfl

end ApiCompiler.Derivation
