import ApiCompiler.Derivation.Blueprint
import ApiCompiler.Modules.Manifest
import ApiCompiler.Proofs.Derivation.Actions
import ApiCompiler.Proofs.Modules.InputText
import ApiCompiler.Proofs.Modules.Rendering
import ApiCompiler.Proofs.Text.Sentence

/-!
The descriptions that modules show. One that is made up because there is none in the document is cut like
any other: it ends where its first sentence does, be it within a version or a path.
-/

namespace ApiCompiler.Modules

open Component Script ApiCompiler.Derivation
open Text (IsUnbroken IsUnmarked firstSentence trim)

def displayLines (label description : String) : List String :=
  ["  " ++ "display: \x7b",
    "    " ++ ("label: " ++ stringLiteral label ++ ","),
    "    " ++ ("description: " ++ stringLiteral description ++ ",")]

theorem isSolid_of_getLast? {text : String} {c : Char} (last : text.toList.getLast? = some c)
    (dark : Text.isBlank c = false) : IsSolid text := by
  obtain ⟨front, letters⟩ := List.getLast?_eq_some_iff.mp last
  exact ⟨front, c, letters, dark⟩

theorem solid_member (name value : String) : (Step.member name value).Solid :=
  .line (IsSolid.append ⟨[], ',', rfl, rfl⟩ _)

theorem layout_display {opener closer : String} {front more back : List Step}
    (opens : IsSolid opener) (closes : IsSolid closer) (before : AllSolid front)
    (inside : AllSolid more) (behind : AllSolid back) (label description : String) :
    ∃ rest, layout [.block opener closer (front ++ .block "display: \x7b" "\x7d,"
        (.member "label" (stringLiteral label) ::
          .member "description" (stringLiteral description) :: more) :: back)] =
      String.intercalate "\n" (opener :: linesOf standardIndent 1 front ++
        displayLines label description ++ rest) := by
  have display : (Step.block "display: \x7b" "\x7d," (.member "label" (stringLiteral label) ::
      .member "description" (stringLiteral description) :: more)).Solid :=
    .block (isSolid_of_getLast? (c := '\x7b') rfl rfl) isSolid_closer
      (.cons (solid_member ..) (.cons (solid_member ..) inside))
  have whole : AllSolid [.block opener closer (front ++ .block "display: \x7b" "\x7d,"
      (.member "label" (stringLiteral label) ::
        .member "description" (stringLiteral description) :: more) :: back)] :=
    .cons (.block opens closes (before.append (.cons display behind))) .nil
  have none : marginOf standardIndent 0 = "" := by decide
  have one : marginOf standardIndent 1 = "  " := by decide
  have two : marginOf standardIndent 2 = "    " := by decide
  refine ⟨linesOf standardIndent 2 more ++ ("  " ++ "\x7d,") :: linesOf standardIndent 1 back ++
    [closer], ?_⟩
  rw [layout_of_solid whole]
  simp [linesOf, linesOf_append, Step.lines, Step.member, displayLines, none, one, two]

/-! Texts behind words. -/

/-- Letters and blanks between them. -/
def IsWords (text : List Char) : Prop :=
  text.all (fun c => c.isAlpha || c = ' ') = true

namespace IsWords

variable {front named : List Char}

theorem cases (words : IsWords front) {c : Char} (member : c ∈ front) :
    c.isAlpha = true ∨ c = ' ' := by
  simpa using List.all_eq_true.mp words c member

theorem isUnbroken_append (words : IsWords front) (unbroken : IsUnbroken named) :
    IsUnbroken (front ++ named) := by
  refine List.forall_mem_append.mpr ⟨fun c member => ?_, unbroken⟩
  rcases words.cases member with letter | rfl
  · have range : (65 ≤ c.toNat ∧ c.toNat ≤ 90) ∨ (97 ≤ c.toNat ∧ c.toNat ≤ 122) := by
      have cased : c.isAlpha = (c.isUpper || c.isLower) := rfl
      rwa [cased, Bool.or_eq_true, Text.isUpper_iff, Text.isLower_iff] at letter
    simp only [Text.isLineBreak, Bool.or_eq_false_iff, Bool.and_eq_false_iff, decide_eq_false_iff_not,
      beq_eq_false_iff_ne]
    omega
  · rfl

theorem isUnmarked_append (words : IsWords front) (unmarked : IsUnmarked named) :
    IsUnmarked (front ++ named) := by
  refine unmarked.append fun opened => ?_
  rcases words.cases opened with letter | blank
  · cases letter
  · cases blank

theorem unended_append_iff (words : IsWords front) :
    (∀ c ∈ front ++ named, c ≠ '.' ∧ c ≠ '!' ∧ c ≠ '?') ↔
      ∀ c ∈ named, c ≠ '.' ∧ c ≠ '!' ∧ c ≠ '?' := by
  rw [List.forall_mem_append]
  refine ⟨And.right, fun later => ⟨fun c member => ?_, later⟩⟩
  have word := words.cases member
  refine ⟨?_, ?_, ?_⟩ <;> rintro rfl <;> exact absurd word (by decide)

end IsWords

/-! The manifest. -/

theorem render_manifestModule (key : String) (profile : Profile) (category : String) :
    ∃ rest, (manifestModule key profile category).defaultExport.map Expression.render =
      some (String.intercalate "\n" (["component(\x7b", "  " ++ ("key: " ++ stringLiteral key ++ ",")] ++
        displayLines profile.label (profile.description.description?.getD profile.label) ++
          rest)) := by
  have opens : IsSolid "component(\x7b" := isSolid_of_getLast? (c := '\x7b') rfl rfl
  have closes : IsSolid "\x7d)" := isSolid_of_getLast? (c := ')') rfl rfl
  have behind : AllSolid [.line "hooks: \x7b error: handleErrors \x7d,", .line "actions,",
      .line "connections,"] :=
    .cons (.line (isSolid_of_getLast? (c := ',') rfl rfl))
      (.cons (.line (isSolid_of_getLast? (c := ',') rfl rfl))
        (.cons (.line (isSolid_of_getLast? (c := ',') rfl rfl)) .nil))
  have inside : AllSolid [.member "category" (stringLiteral category),
      .member "iconPath" (stringLiteral profile.iconPath)] :=
    .cons (solid_member ..) (.cons (solid_member ..) .nil)
  obtain ⟨rest, written⟩ := layout_display opens closes
    (.cons (solid_member "key" (stringLiteral key)) .nil) inside behind profile.label
    (profile.description.description?.getD profile.label)
  exact ⟨rest, congrArg some written⟩

/-- The title and the version, as they stand in the description that is made up from them. -/
def titleAndVersion (info : Openapi.Info) : List Char :=
  info.title.toList ++ ' ' :: (info.version.getD "").toList

theorem toList_synthesizedDescription (info : Openapi.Info) :
    (synthesizedDescription info).toList =
      "Generated component for ".toList ++ titleAndVersion info := by
  have blank : " ".toList = [' '] := by decide
  unfold synthesizedDescription titleAndVersion
  rw [String.toList_append, String.toList_append, String.toList_append, blank, List.append_assoc,
    List.append_assoc, List.singleton_append]

theorem toList_description_profile {document : Openapi.Document} (iconPath : String)
    (undescribed : ∀ text ∈ document.info.description.toOption, text = "") :
    (profile document iconPath).description.toList =
      trim (synthesizedDescription document.info).toList := by
  have none : (profile document iconPath).description =
      (synthesizedDescription document.info).trimBlanks := by
    rw [profile]
    cases given : document.info.description.toOption with
    | none => rfl
    | some text =>
        rw [undescribed text given]
        rfl
  rw [none, String.trimBlanks, String.toList_ofList]

/--
A component without a description of its own shows the first sentence of the one made up for it, which
is all of it exactly when no sentence ends in its title or its version.
-/
theorem manifest_describes {document : Openapi.Document}
    (undescribed : ∀ text ∈ document.info.description.toOption, text = "")
    (unbroken : IsUnbroken (titleAndVersion document.info))
    (unmarked : IsUnmarked (titleAndVersion document.info)) (key iconPath category : String) :
    ∃ shown rest,
      (manifestModule key (profile document iconPath) category).defaultExport.map
          Expression.render =
        some (String.intercalate "\n" (["component(\x7b",
          "  " ++ ("key: " ++ stringLiteral key ++ ",")] ++
            displayLines document.info.title shown ++ rest)) ∧
      shown.toList = firstSentence (trim (synthesizedDescription document.info).toList) ∧
      (shown.toList = trim (synthesizedDescription document.info).toList ↔
        ∀ c ∈ titleAndVersion document.info, c ≠ '.' ∧ c ≠ '!' ∧ c ≠ '?') := by
  have words : IsWords "Generated component for ".toList := by rfl
  have letters := toList_synthesizedDescription document.info
  have whole := toList_description_profile iconPath undescribed
  have inside := Text.trim_isInfix (synthesizedDescription document.info).toList
  rw [← whole, letters] at inside
  have first : "Generated component for ".toList = 'G' :: "enerated component for ".toList := by
    decide
  obtain ⟨kept, begun⟩ := Text.trim_cons (c := 'G') rfl
    ("enerated component for ".toList ++ titleAndVersion document.info)
  rw [← List.cons_append, ← first, ← letters, ← whole] at begun
  obtain ⟨shown, described, sentence, full⟩ := Text.exists_description? begun rfl rfl
    ((words.isUnbroken_append unbroken).of_isInfix inside)
    ((words.isUnmarked_append unmarked).of_isInfix inside)
  obtain ⟨rest, written⟩ := render_manifestModule key (profile document iconPath) category
  rw [described] at written
  refine ⟨shown, rest, written, whole ▸ sentence, ?_⟩
  rw [whole, Text.trim_of_isTrimmed (Text.isTrimmed_trim _), Text.unended_trim_iff] at full
  rw [full, letters, words.unended_append_iff]

-- Of a version like this one only the first number is left.
example : "Generated component for Minimal API 1.0.0".description? =
    some "Generated component for Minimal API 1" := by decide

/-! Actions. -/

theorem solid_performSteps (plan : RequestPlan) : (performSteps plan).Solid := by
  have client : IsSolid "const client = createClient(connection);" :=
    isSolid_of_getLast? (c := ';') rfl rfl
  have answer : IsSolid "return \x7b data \x7d;" := isSolid_of_getLast? (c := ';') rfl rfl
  have call : IsSolid ("const \x7b data \x7d = await " ++ requestCall plan ++ ";") :=
    IsSolid.append ⟨[], ';', rfl, rfl⟩ _
  have opens : IsSolid " \x7d) => \x7b" := isSolid_of_getLast? (c := '\x7b') rfl rfl
  exact .block (opens.append _) isSolid_closer (.cons (.line client) (.cons (.line call)
    (.cons (.line answer) .nil)))

theorem value_constantOf (action : Action) :
    ∃ rest, (constantOf action).value =
      String.intercalate "\n" (["action(\x7b"] ++
        displayLines action.display.label (action.display.description.description?.getD "") ++
          rest) := by
  have opens : IsSolid "action(\x7b" := isSolid_of_getLast? (c := '\x7b') rfl rfl
  have closes : IsSolid "\x7d)" := isSolid_of_getLast? (c := ')') rfl rfl
  refine layout_display opens closes .nil .nil (.cons (solid_performSteps action.request) (.cons
    (.block (isSolid_of_getLast? (c := '\x7b') rfl rfl) isSolid_closer (AllSolid.of_forall ?_))
      .nil)) action.display.label (action.display.description.description?.getD "")
  intro step inside
  obtain ⟨⟨key, input⟩, -, rfl⟩ := List.mem_map.mp inside
  exact solid_inputSteps key input

theorem toList_operationLabel (path : String) (verb : Openapi.Verb) :
    ∃ c rest, (operationLabel path verb.name).toList = c :: rest ++ path.toList ∧
      Text.isBlank c = false ∧ IsWords (c :: rest) := by
  have letters : verb.name.toUpper.toList = verb.name.toList.map Char.toUpper := by
    rw [String.toUpper, String.toList_map]
  have whole : (operationLabel path verb.name).toList =
      verb.name.toList.map Char.toUpper ++ [' '] ++ path.toList := by
    simp [operationLabel, letters]
  rw [whole]
  cases verb <;> exact ⟨_, _, rfl, rfl, rfl⟩

/--
An action of an operation without a summary and a description shows the first sentence of its verb and
path, which is all of them exactly when no sentence ends in the path.
-/
theorem buildAction_describes {path : String} {verb : Openapi.Verb} {operation : Openapi.Operation}
    {shared : List (Openapi.Node Openapi.Parameter)} {seen seen' : List String} {action : Action}
    {log log' : Log}
    (built : (buildAction path verb.name operation shared seen).run log =
      (.ok (action, seen'), log'))
    (unsummarized : ∀ text ∈ operation.summary.toOption, text = "")
    (undescribed : ∀ text ∈ operation.description.toOption, text = "")
    (unbroken : IsUnbroken path.toList) (unmarked : IsUnmarked path.toList) :
    ∃ shown rest,
      (constantOf action).value =
        String.intercalate "\n" (["action(\x7b"] ++ displayLines action.display.label shown ++
          rest) ∧
      shown.toList = firstSentence (operationLabel path verb.name).toList ∧
      (shown.toList = trim (operationLabel path verb.name).toList ↔
        ∀ c ∈ path.toList, c ≠ '.' ∧ c ≠ '!' ∧ c ≠ '?') := by
  have whole : action.display.description = operationLabel path verb.name := by
    obtain ⟨key, groupTag, inputs, -, rfl⟩ := buildAction_ok built
    have summary : operation.summary.toOption.filter (fun text => !text.isEmpty) = none :=
      Option.filter_eq_none_iff.mpr fun text given => by simp [unsummarized text given]
    have description : operation.description.toOption.filter (fun text => !text.isEmpty) = none :=
      Option.filter_eq_none_iff.mpr fun text given => by simp [undescribed text given]
    simp [actionOf, summary, description]
  obtain ⟨c, front, letters, solid, words⟩ := toList_operationLabel path verb
  have onward : Text.endsSentence c = false := by
    have word := words.cases List.mem_cons_self
    apply Text.endsSentence_eq_false.mpr
    refine ⟨?_, ?_, ?_⟩ <;> rintro rfl <;> exact absurd word (by decide)
  obtain ⟨shown, described, sentence, full⟩ := Text.exists_description? letters solid onward
    (letters ▸ words.isUnbroken_append unbroken) (letters ▸ words.isUnmarked_append unmarked)
  obtain ⟨rest, written⟩ := value_constantOf action
  rw [whole, described] at written
  rw [letters, words.unended_append_iff, ← letters] at full
  exact ⟨shown, rest, written, sentence, full⟩

end ApiCompiler.Modules
