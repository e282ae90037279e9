import ApiCompiler.Proofs.Derivation.ConnectionKeys
import ApiCompiler.Proofs.Script.Surface

/-!
Names that code in strict mode may not bind. The reserved words among them are replaced wherever a
name is made; `eval` and `arguments`, which are no reserved words, are not.
-/

namespace ApiCompiler.Modules

open Component Script ApiCompiler.Derivation

/-- Names that strict mode leaves to the language although they are not reserved. -/
def restrictedNames : List String := ["eval", "arguments"]

/-- Words that code in strict mode may not bind; all code of a module is such code. -/
def strictWords : List String := keywords ++ restrictedNames

theorem mem_strictWords_iff {name : String} (unreserved : name ∉ Naming.replacements.map Prod.fst) :
    name ∈ strictWords ↔ name ∈ restrictedNames := by
  rw [strictWords, List.mem_append]
  exact or_iff_right fun reserved => unreserved (keywords_reserved name reserved)

/-! Identifiers. -/

theorem spellLeadingDigit_mem_restrictedNames_iff (name : String) :
    String.ofList (Naming.spellLeadingDigit name.toList) ∈ restrictedNames ↔
      name ∈ restrictedNames := by
  have unnumbered : ∀ n < 10, ∀ word ∈ restrictedNames,
      ¬(Text.named Text.ones n).toList <+: word.toList := by decide +kernel
  have lettered : ∀ word ∈ restrictedNames, word.toList.head?.any Char.isDigit = false := by
    decide
  cases text : name.toList with
  | nil =>
      rw [String.toList_eq_nil_iff.mp text]
      exact Iff.rfl
  | cons c rest =>
      rw [Naming.spellLeadingDigit]
      split
      · rename_i digit
        have small := Naming.digitValue_lt digit
        refine iff_of_false (fun restricted => ?_) fun restricted => ?_
        · refine unnumbered _ small _ restricted ⟨rest, ?_⟩
          rw [String.toList_ofList, Text.spellNat, if_pos (by omega)]
        · have letter := lettered name restricted
          rw [text] at letter
          exact Bool.false_ne_true (letter.symm.trans digit)
      · rw [← text, String.ofList_toList]

/-- The identifier for a name is restricted exactly if the words of the name run together are. -/
theorem cleanIdentifier_mem_restrictedNames_iff (name : String) :
    Naming.cleanIdentifier name ∈ restrictedNames ↔ name.camelCase ∈ restrictedNames := by
  have unspelled : ∀ pair ∈ Naming.replacements, pair.1.camelCase ∉ restrictedNames := by
    decide +kernel
  have ungiven : ∀ pair ∈ Naming.replacements, pair.2 ∉ restrictedNames := by decide +kernel
  have kept : ∀ word ∈ restrictedNames, Naming.replacement? word = none := by decide +kernel
  rw [Naming.cleanIdentifier]
  split
  · rename_i other found
    have pair := Naming.mem_replacements found
    exact iff_of_false (ungiven (name, other) pair) (unspelled (name, other) pair)
  · dsimp only
    split
    · rename_i other found
      have pair := Naming.mem_replacements found
      refine iff_of_false (ungiven (_, other) pair) fun restricted => ?_
      rw [kept _ restricted] at found
      cases found
    · exact spellLeadingDigit_mem_restrictedNames_iff name.camelCase

example : Naming.cleanIdentifier "Arguments[]" = "arguments" := by decide

/-! Blueprints. -/

/-- What the modules declare for a blueprint, and the parameters of the functions they define. -/
def introducedNames (blueprint : Blueprint) : List String :=
  blueprint.actions.map Action.key ++ blueprint.connections.map Connection.key ++
    blueprint.actions.flatMap fun action => "connection" :: action.request.arguments

theorem not_mem_replacements_of_performs {endpoint : Endpoint} {action : Action}
    (performs : Performs endpoint action) :
    ∀ name ∈ "connection" :: action.request.arguments,
      name ∉ Naming.replacements.map Prod.fst := by
  obtain ⟨tag, inputs, derived, -, same⟩ := performs
  obtain ⟨merged, -, -, -, seen, keyed⟩ := operationInputs_ok derived
  have arguments : action.request.arguments = inputs.all.map Input.key := by rw [same]; rfl
  rw [List.forall_mem_cons, arguments]
  exact ⟨by decide, keyed.not_mem_replacements⟩

/--
Whatever the description, a name that the modules of its blueprint introduce is none that strict mode
forbids, except for the two that are not reserved words.
-/
theorem introducedNames_strict {document : Openapi.Document} {fallback : Option String}
    {iconPath : String} {blueprint : Blueprint} {log log' : Log}
    (assembled : (assemble document fallback iconPath).run log = (.ok blueprint, log')) :
    ∀ name ∈ introducedNames blueprint, name ∈ strictWords ↔ name ∈ restrictedNames := by
  obtain ⟨⟨_, _, built⟩, -⟩ := assemble_ok assembled
  obtain ⟨_, distinguished⟩ := buildActions_distinguished built
  obtain ⟨⟨_, actions⟩, ⟨_, connections⟩, -⟩ := wellNamed_assemble assembled
  intro name introduced
  refine mem_strictWords_iff ?_
  rw [introducedNames, List.mem_append, List.mem_append, List.mem_flatMap] at introduced
  rcases introduced with (action | connection) | ⟨action, inside, parameter⟩
  · exact actions.not_mem_replacements name action
  · exact connections.not_mem_replacements name connection
  · obtain ⟨endpoint, -, performs⟩ := exists_of_mem_right distinguished.performed inside
    exact not_mem_replacements_of_performs performs name parameter

end ApiCompiler.Modules
