import ApiCompiler.Proofs.Modules.Bindings
import ApiCompiler.Proofs.Modules.InputText
import ApiCompiler.Proofs.Modules.RequestCall
import ApiCompiler.Proofs.Script.Outline

/-!
Every generated module is read back from its text: whatever texts a document brings in, they stand
in literals, and all brackets around them are closed.
-/

namespace ApiCompiler.Modules

open Component Script ApiCompiler.Derivation

/-! Members of object literals. -/

theorem balanced_propertyKey (name : String) : Balanced (propertyKey name).toList := by
  by_cases ends : EndsInLineFeed name
  · obtain ⟨plain, whole, letters⟩ := ends
    have passes := isPlainName_iff.mpr (.inr ⟨plain, whole, letters⟩)
    rw [propertyKey, if_pos passes, letters]
    exact (balanced_of_isName whole).append balanced_lineFeed
  · rcases propertyKey_of_not_endsInLineFeed ends with ⟨whole, bare⟩ | ⟨-, quoted⟩
    · rw [bare]
      exact balanced_of_isName whole
    · rw [quoted]
      exact balanced_stringLiteral name

theorem balanced_boolLiteral (b : Bool) : Balanced (boolLiteral b).toList := by
  cases b <;> decide

theorem closed_member {name value : String} (named : isName name.toList = true)
    (balanced : Balanced value.toList) : (Step.member name value).Closed := by
  have comma : IsSolid "," := ⟨[], ',', rfl, by decide⟩
  have between : Balanced ": ".toList := .of_letters rfl rfl
  have ends : Balanced ",".toList := .of_letters rfl rfl
  refine .line (comma.append _) fun closer => ?_
  have whole : Balanced (name ++ ": " ++ value ++ ",").toList := by
    simp only [String.toList_append]
    exact (((balanced_of_isName named).append between).append balanced).append ends
  exact whole.within [closer]

theorem closed_textMember {name : String} (named : isName name.toList = true) (text : String) :
    (Step.member name (stringLiteral text)).Closed :=
  closed_member named (balanced_stringLiteral text)

theorem closed_member? {name : String} (named : isName name.toList = true) {value : Option String}
    (balanced : ∀ text ∈ value, Balanced text.toList) : AllClosed (Step.member? name value) := by
  refine AllClosed.of_forall fun step member => ?_
  obtain ⟨text, given, rfl⟩ := List.mem_map.mp member
  exact closed_member named (balanced text (Option.mem_toList.mp given))

theorem balanced_of_mem_map {α : Type} {text : α → String} (each : ∀ a, Balanced (text a).toList)
    {value : Option α} : ∀ shown ∈ value.map text, Balanced shown.toList := by
  intro shown member
  obtain ⟨a, -, rfl⟩ := Option.mem_map.mp member
  exact each a

theorem leaves_brace (outer : Char) : Leads (['\x7d'] ++ [outer]) [outer] "\x7d,".toList :=
  .of_letters rfl rfl

/-- The definition of something under a name, in braces. -/
theorem closed_entry (name : String) {body : List Step} (closed : AllClosed body) :
    (Step.block (propertyKey name ++ ": \x7b") "\x7d," body).Closed := by
  have brace : Leads [] ['\x7d'] ": \x7b".toList := .of_letters rfl rfl
  have enters : Leads [] ['\x7d'] (propertyKey name ++ ": \x7b").toList := by
    rw [String.toList_append]
    exact (balanced_propertyKey name).append brace
  exact .block (isSolid_opener name) isSolid_closer enters leaves_brace closed

/-! Inputs. -/

/-- A conversion by a function that has a name. -/
def HasName (c : Conversion) : Prop :=
  isName c.name.toList = true

theorem balanced_conversionExpression {c : Conversion} (named : HasName c) :
    Balanced (conversionExpression c).toList := by
  have argument : Balanced "(value) => util.types.".toList := .of_letters rfl rfl
  have applied : Balanced "(value)".toList := .of_letters rfl rfl
  have ends : Balanced (if c.coalesce then " || undefined" else "").toList := by
    split <;> decide
  unfold conversionExpression
  simp only [String.toList_append]
  exact ((argument.append (balanced_of_isName named)).append applied).append ends

theorem balanced_choiceText (c : Choice) : Balanced (choiceText c).toList := by
  have opens : Leads [] ['\x7d'] "\x7b label: ".toList := .of_letters rfl rfl
  have between : Balanced ", value: ".toList := .of_letters rfl rfl
  have closes : Leads ['\x7d'] [] " \x7d,".toList := .of_letters rfl rfl
  have label := (balanced_stringLiteral c.label).within ['\x7d']
  have value := (balanced_stringLiteral c.value).within ['\x7d']
  unfold choiceText
  simp only [String.toList_append]
  exact (((opens.append label).append (between.within _)).append value).append closes

theorem closed_memberStep {member : String × Shown} (named : isName member.1.toList = true)
    (conversion : ∀ c, member.2 = .conversion c → HasName c) : (memberStep member).Closed := by
  obtain ⟨name, shown⟩ := member
  cases shown with
  | text value => exact closed_textMember named value
  | truth value => exact closed_member named (balanced_boolLiteral value)
  | conversion c => exact closed_member named (balanced_conversionExpression (conversion c rfl))
  | choices list =>
      have opens : Leads [] [']'] ": [".toList := .of_letters rfl rfl
      have enters : Leads [] [']'] (name ++ ": [").toList := by
        rw [String.toList_append]
        exact (balanced_of_isName named).append opens
      have leaves (outer : Char) : Leads ([']'] ++ [outer]) [outer] "],".toList := .of_letters rfl rfl
      refine .block ?_ ?_ enters leaves (AllClosed.of_forall fun step inside => ?_)
      · exact IsSolid.append ⟨[':', ' '], '[', rfl, by decide⟩ name
      · exact ⟨[']'], ',', rfl, by decide⟩
      · obtain ⟨c, -, rfl⟩ := List.mem_map.mp inside
        exact .line (IsSolid.append ⟨[' ', '\x7d'], ',', rfl, by decide⟩ _) fun closer =>
          (balanced_choiceText c).within [closer]

theorem closed_inputSteps (key : String) {input : Input} (named : ∀ c ∈ input.conversion, HasName c) :
    (inputSteps key input).Closed := by
  rw [inputSteps_eq]
  refine closed_entry key (AllClosed.of_forall fun step inside => ?_)
  obtain ⟨member, given, rfl⟩ := List.mem_map.mp inside
  have slot := mem_of_mem_present given
  have names : ∀ name ∈ ["label", "type", "required", "default", "model", "example", "clean",
      "comments"], isName name.toList = true := by decide
  refine closed_memberStep (names _ ?_) fun c shown => ?_
  · rw [← map_fst_slots input]
    exact List.mem_map_of_mem (f := Prod.fst) slot
  · rw [shown] at slot
    simp only [slots, List.mem_cons, Prod.mk.injEq, Option.map_eq_some_iff, reduceCtorEq, and_false,
      exists_false, false_or, Option.some.injEq, Shown.conversion.injEq, List.not_mem_nil, or_false,
      eq_comm (a := some (Shown.conversion c))] at slot
    obtain ⟨-, given, known, rfl⟩ := slot
    exact named given known

/-! Actions. -/

/-- A plan whose names may stand in the code of a function. -/
structure Callable (plan : RequestPlan) : Prop where
  arguments : ∀ name ∈ plan.arguments, Naming.isIdentifier name.toList = true
  usable : Usable plan

theorem balanced_bindingEntry {b : Binding} (identifier : Naming.isIdentifier b.key.toList = true) :
    Balanced (bindingEntry b).toList := by
  have colon : Balanced ": ".toList := .of_letters rfl rfl
  rw [bindingEntry]
  split
  · exact balanced_of_isIdentifier identifier
  · simp only [String.toList_append]
    exact ((balanced_stringLiteral b.wireName).append colon).append
      (balanced_of_isIdentifier identifier)

/-- What stands in braces with a blank on either side. -/
theorem balanced_braces {text : String} (balanced : Balanced text.toList) :
    Balanced ("\x7b " ++ text ++ " \x7d").toList := by
  have opens : Leads [] ['\x7d'] "\x7b ".toList := .of_letters rfl rfl
  have closes : Leads ['\x7d'] [] " \x7d".toList := .of_letters rfl rfl
  simp only [String.toList_append]
  exact (opens.append (balanced.within ['\x7d'])).append closes

theorem balanced_comma : Balanced ", ".toList := .of_letters rfl rfl

theorem balanced_objectLiteral {bindings : List Binding}
    (identifiers : ∀ b ∈ bindings, Naming.isIdentifier b.key.toList = true) :
    Balanced (objectLiteral bindings).toList := by
  rw [objectLiteral]
  split
  · decide
  · refine balanced_braces (balanced_intercalate balanced_comma fun entry member => ?_)
    obtain ⟨b, inside, rfl⟩ := List.mem_map.mp member
    exact balanced_bindingEntry (identifiers b inside)

theorem balanced_labelled {label text : String} (labelled : Balanced label.toList)
    (balanced : Balanced text.toList) : Balanced (label ++ text).toList := by
  rw [String.toList_append]
  exact labelled.append balanced

theorem balanced_requestCall {plan : RequestPlan} (usable : Usable plan) :
    Balanced (requestCall plan).toList := by
  have body : ∀ bindings ∈ plan.body.toList, Balanced (objectLiteral bindings).toList :=
    fun bindings given =>
      balanced_objectLiteral (usable bindings (.inl (Option.mem_toList.mp given)))
  have query : ∀ text ∈ plan.query.toList.map fun bindings => "params: " ++ objectLiteral bindings,
      Balanced text.toList := by
    intro text member
    obtain ⟨bindings, given, rfl⟩ := List.mem_map.mp member
    exact balanced_labelled (.of_letters rfl rfl)
      (balanced_objectLiteral (usable bindings (.inr (Option.mem_toList.mp given))))
  have address := balanced_templateLiteral plan.path
  rw [requestCall]
  dsimp only
  split
  · rename_i known
    have arguments : ∀ text ∈ templateLiteral plan.path :: plan.body.toList.map objectLiteral ++
        (plan.query.toList.map fun bindings => "params: " ++ objectLiteral bindings).map fun text =>
          "\x7b " ++ text ++ " \x7d", Balanced text.toList := by
      refine List.forall_mem_append.mpr ⟨List.forall_mem_cons.mpr ⟨address, fun text member => ?_⟩,
        fun text member => ?_⟩
      · obtain ⟨bindings, given, rfl⟩ := List.mem_map.mp member
        exact body bindings given
      · obtain ⟨inner, given, rfl⟩ := List.mem_map.mp member
        exact balanced_braces (query inner given)
    have client : Balanced "client.".toList := .of_letters rfl rfl
    have opens : Leads [] [')'] "(".toList := .of_letters rfl rfl
    have closes : Leads [')'] [] ")".toList := .of_letters rfl rfl
    have verb := balanced_of_isIdentifier (isIdentifier_clientMethod known)
    have inside := (balanced_intercalate balanced_comma arguments).within [')']
    simp only [String.toList_append]
    exact (((client.append verb).append opens).append inside).append closes
  · have options : ∀ text ∈ ["method: " ++ stringLiteral plan.verb,
          "url: " ++ templateLiteral plan.path] ++
        plan.body.toList.map (fun bindings => "data: " ++ objectLiteral bindings) ++
        plan.query.toList.map fun bindings => "params: " ++ objectLiteral bindings,
        Balanced text.toList := by
      have method : Balanced ("method: " ++ stringLiteral plan.verb).toList :=
        balanced_labelled (.of_letters rfl rfl) (balanced_stringLiteral plan.verb)
      have url : Balanced ("url: " ++ templateLiteral plan.path).toList :=
        balanced_labelled (.of_letters rfl rfl) address
      refine List.forall_mem_append.mpr ⟨List.forall_mem_append.mpr
        ⟨List.forall_mem_cons.mpr ⟨method, List.forall_mem_singleton.mpr url⟩,
          fun text member => ?_⟩, query⟩
      obtain ⟨bindings, given, rfl⟩ := List.mem_map.mp member
      exact balanced_labelled (.of_letters rfl rfl) (body bindings given)
    have opens : Leads [] ['\x7d', ')'] "client.request(\x7b ".toList := .of_letters rfl rfl
    have closes : Leads ['\x7d', ')'] [] " \x7d)".toList := .of_letters rfl rfl
    have inside := (balanced_intercalate balanced_comma options).within ['\x7d', ')']
    simp only [String.toList_append]
    exact (opens.append inside).append closes

/-- A line that ends a statement, which needs an open bracket around it. -/
theorem closed_statement {text : String} (balanced : Balanced text.toList) :
    (Step.line (text ++ ";")).Closed := by
  refine .line (IsSolid.append ⟨[], ';', rfl, by decide⟩ text) fun closer => ?_
  have ends : Leads [closer] [closer] ";".toList := by
    rw [Leads, show ";".toList = [';'] from rfl, Place.after?_cons]
    rfl
  rw [String.toList_append]
  exact (balanced.within [closer]).append ends

theorem closed_performSteps {plan : RequestPlan} (callable : Callable plan) :
    (performSteps plan).Closed := by
  have parameters : ∀ name ∈ "connection" :: plan.arguments, Balanced name.toList :=
    List.forall_mem_cons.mpr
      ⟨by decide, fun name member => balanced_of_isIdentifier (callable.arguments name member)⟩
  have inside := (balanced_intercalate balanced_comma parameters).within ['\x7d', ')']
  have opens : Leads [] ['\x7d', ')'] "perform: async (context, \x7b ".toList := .of_letters rfl rfl
  have body : Leads ['\x7d', ')'] ['\x7d'] " \x7d) => \x7b".toList := .of_letters rfl rfl
  have enters : Leads [] ['\x7d'] ("perform: async (context, \x7b " ++
      String.intercalate ", " ("connection" :: plan.arguments) ++ " \x7d) => \x7b").toList := by
    simp only [String.toList_append]
    exact (opens.append inside).append body
  have call : Balanced ("const \x7b data \x7d = await " ++ requestCall plan).toList :=
    balanced_labelled (.of_letters rfl rfl) (balanced_requestCall callable.usable)
  rw [performSteps]
  refine .block ?_ isSolid_closer enters leaves_brace (.cons ?_ (.cons (closed_statement call)
    (.cons ?_ .nil)))
  · exact IsSolid.append ⟨" \x7d) => ".toList, '\x7b', rfl, by decide⟩ _
  · exact @closed_statement "const client = createClient(connection)" (by decide)
  · exact @closed_statement "return \x7b data \x7d" (by decide)

/-- An action whose names may stand in the code that defines it. -/
structure Definable (action : Action) : Prop where
  key : Naming.isIdentifier action.key.toList = true
  callable : Callable action.request
  converted : ∀ entry ∈ action.inputs, ∀ c ∈ entry.2.conversion, HasName c

theorem closed_inputs {α : Type} {entries : List α} {write : α → Step}
    (each : ∀ entry ∈ entries, (write entry).Closed) :
    (Step.block "inputs: \x7b" "\x7d," (entries.map write)).Closed := by
  refine .of_block rfl rfl (by decide) (by decide) rfl (fun _ => rfl)
    (AllClosed.of_forall fun step inside => ?_)
  obtain ⟨entry, given, rfl⟩ := List.mem_map.mp inside
  exact each entry given

theorem isExpression_actionSteps {action : Action} (definable : Definable action) :
    (actionSteps action).IsExpression := by
  have display : (Step.block "display: \x7b" "\x7d,"
      [.member "label" (stringLiteral action.display.label),
        .member "description"
          (stringLiteral (action.display.description.description?.getD ""))]).Closed := by
    refine .of_block rfl rfl (by decide) (by decide) rfl (fun _ => rfl) (.cons ?_ (.cons ?_ .nil))
    · exact closed_textMember (by decide) _
    · exact closed_textMember (by decide) _
  rw [actionSteps]
  refine .of_block rfl rfl (by decide) (by decide) rfl rfl
    (.cons display (.cons (closed_performSteps definable.callable) (.cons ?_ .nil)))
  exact closed_inputs fun entry given =>
    closed_inputSteps entry.1 (definable.converted entry given)

theorem hasName_of_isDerived {input : Input} (derived : IsDerived input) :
    ∀ c ∈ input.conversion, HasName c := by
  cases derived with
  | connection => exact nofun
  | source built =>
      simp only [buildInput, bind_eq_ok] at built
      obtain ⟨_, -, _, -, _, -, same⟩ := built
      cases same
      rintro c ⟨⟩
      rw [HasName, inputType]
      split <;> decide

theorem definable_of_performs {endpoint : Endpoint} {action : Action}
    (performs : Performs endpoint action)
    (key : Naming.isIdentifier action.key.toList = true) : Definable action := by
  obtain ⟨groupTag, inputs, derived, -, same⟩ := performs
  obtain ⟨_, -, -, -, _, keyed⟩ := operationInputs_ok derived
  have keys := keyed.inputKeys
  refine ⟨key, ?_, ?_⟩
  · rw [same]
    refine ⟨fun name member => ?_, usable_requestPlan keyed⟩
    obtain ⟨input, inside, rfl⟩ := List.mem_map.mp member
    exact (keys.usable input inside).identifier
  · rw [same, inputs_actionOf keys]
    refine List.forall_mem_cons.mpr ⟨hasName_of_isDerived .connection, fun entry member => ?_⟩
    obtain ⟨input, inside, rfl⟩ := List.mem_map.mp member
    exact hasName_of_isDerived (isDerived_of_operationInputs derived input inside)

/-! Connections. -/

theorem closed_credentialSteps (key : String) (c : Credential) : (credentialSteps key c).Closed := by
  have texts {name : String} (named : isName name.toList = true) (value : Option String) :
      AllClosed (Step.member? name (value.map stringLiteral)) :=
    closed_member? named (balanced_of_mem_map balanced_stringLiteral)
  have truths {name : String} (named : isName name.toList = true) (value : Option Bool) :
      AllClosed (Step.member? name (value.map boolLiteral)) :=
    closed_member? named (balanced_of_mem_map balanced_boolLiteral)
  have first : AllClosed [.member "label" (stringLiteral c.label),
      .member "type" (stringLiteral c.type)] :=
    .cons (closed_textMember (by decide) _) (.cons (closed_textMember (by decide) _) .nil)
  rw [credentialSteps]
  refine closed_entry key ?_
  refine AllClosed.append (AllClosed.append (AllClosed.append (AllClosed.append (AllClosed.append
    (AllClosed.append first ?_) ?_) ?_) ?_) ?_) ?_
  · exact truths (by decide) c.required
  · exact truths (by decide) c.shown
  · exact texts (by decide) c.placeholder
  · exact texts (by decide) c.default
  · exact texts (by decide) c.sample
  · exact texts (by decide) c.comments

theorem isExpression_connectionSteps (connection : Connection) :
    (connectionSteps connection).IsExpression := by
  have first : AllClosed [.member "key" (stringLiteral connection.key),
      .member "label" (stringLiteral connection.label)] :=
    .cons (closed_textMember (by decide) _) (.cons (closed_textMember (by decide) _) .nil)
  have comments : AllClosed (Step.member? "comments" (connection.comments.map stringLiteral)) :=
    closed_member? (by decide) (balanced_of_mem_map balanced_stringLiteral)
  have grants (grant : OAuthGrant) : Balanced ("OAuth2Type." ++ grant.name).toList := by
    cases grant <;> decide
  have grant : AllClosed (Step.member? "oauth2Type"
      (connection.grant.map fun grant => "OAuth2Type." ++ grant.name)) :=
    closed_member? (by decide) (balanced_of_mem_map grants)
  have function : Balanced (if connection.grant.isNone then "connection" else
      "oauth2Connection").toList := by
    split <;> decide
  have opens : Leads [] ['\x7d', ')'] "(\x7b".toList := .of_letters rfl rfl
  have enters : Leads [] ['\x7d', ')'] ((if connection.grant.isNone then "connection" else
      "oauth2Connection") ++ "(\x7b").toList := by
    rw [String.toList_append]
    exact function.append opens
  have leaves : Leads ['\x7d', ')'] [] "\x7d)".toList := .of_letters rfl rfl
  rw [connectionSteps]
  refine .block (IsSolid.append ⟨['('], '\x7b', rfl, by decide⟩ _) ⟨['\x7d'], ')', rfl, by decide⟩
    enters leaves (AllClosed.append (AllClosed.append (AllClosed.append first comments) grant)
      (.cons ?_ .nil))
  exact closed_inputs fun entry _ => closed_credentialSteps entry.1 entry.2

/-! Files. -/

theorem readable_names {source : String} {names : List String}
    (named : ∀ name ∈ names, isName name.toList = true) :
    Import.Readable { source := source, names := names } :=
  .of_isName nofun named

theorem readable_main {source name : String} (word : IsWord name) :
    Import.Readable { source := source, main := some name } := by
  refine .of_isName (fun other same => ?_) nofun
  cases same
  exact word

theorem balanced_objectLines {entries : List String}
    (each : ∀ entry ∈ entries, Balanced entry.toList) :
    Balanced
      (layout [.block "\x7b" "\x7d" ((entries.map fun entry => entry ++ ",").map .line)]).toList := by
  have comma : Balanced ",".toList := .of_letters rfl rfl
  refine balanced_layout (.of_block rfl rfl (by decide) (by decide) rfl rfl
    (AllClosed.of_forall fun step inside => ?_))
  obtain ⟨line, ended, rfl⟩ := List.mem_map.mp inside
  obtain ⟨entry, member, rfl⟩ := List.mem_map.mp ended
  refine .line (IsSolid.append ⟨[], ',', rfl, by decide⟩ entry) fun closer => ?_
  rw [String.toList_append]
  exact ((each entry member).append comma).within [closer]

theorem defaultExport_groupModule (tag : String) (actions : List Action) :
    (groupModule tag actions).defaultExport = some (.steps
      [.block "\x7b" "\x7d" (((actions.map Action.key).map fun key => key ++ ",").map .line)]) := by
  have lines : (actions.map Action.key).map (fun key => key ++ ",") =
      actions.map fun action => action.key ++ "," := List.map_map
  rw [lines]
  rfl

theorem readable_groupModule (tag : String) {actions : List Action}
    (definable : ∀ action ∈ actions, Definable action) : (groupModule tag actions).Readable := by
  refine ⟨?_, fun d member => ?_, fun value exported => ?_⟩
  · rw [imports_groupModule]
    exact List.forall_mem_cons.mpr ⟨readable_names (by decide),
      List.forall_mem_singleton.mpr (readable_names (by decide))⟩
  · obtain ⟨action, inside, rfl⟩ := List.mem_map.mp member
    refine ⟨isName_of_isIdentifier (definable action inside).key, nofun, ?_⟩
    exact balanced_layout (isExpression_actionSteps (definable action inside))
  · rw [defaultExport_groupModule] at exported
    cases exported
    refine balanced_objectLines fun entry member => ?_
    obtain ⟨action, inside, rfl⟩ := List.mem_map.mp member
    exact balanced_of_isIdentifier (definable action inside).key

/-- The entries of the object that the index exports. -/
def indexEntries (tags : List String) : List String :=
  tags.map (fun tag => "..." ++ importName tag) ++ ["rawRequest: buildRawRequestAction(baseUrl)"]

theorem defaultExport_indexModule (tags : List String) :
    (indexModule tags).defaultExport = some (.steps
      [.block "\x7b" "\x7d" (((indexEntries tags).map fun entry => entry ++ ",").map .line)]) := by
  have lines : (indexEntries tags).map (fun entry => entry ++ ",") =
      tags.map (fun tag => "..." ++ importName tag ++ ",") ++
        ["rawRequest: buildRawRequestAction(baseUrl),"] := by
    rw [indexEntries, List.map_append, List.map_map]
    rfl
  rw [lines]
  rfl

theorem isWord_importName {tag : String} (usable : Naming.IsTag tag) : IsWord (importName tag) := by
  have parts : ∀ c ∈ tag.toList, isNamePart c = true := fun c member =>
    isNamePart_of_isAlphanum (usable.usable c member)
  have some : tag ≠ "" := fun same => usable.some (by rw [same]; rfl)
  rw [importName]
  split
  · refine ⟨by simp, ?_⟩
    rw [String.toList_append]
    exact List.forall_mem_append.mpr ⟨parts, List.all_eq_true.mp (by decide)⟩
  · exact ⟨some, parts⟩

theorem readable_indexModule {tags : List String} (distinct : tags.Nodup)
    (usable : ∀ tag ∈ tags, Naming.IsTag tag) : (indexModule tags).Readable := by
  refine ⟨?_, nofun, fun value exported => ?_⟩
  · rw [imports_indexModule distinct]
    refine List.forall_mem_append.mpr ⟨List.forall_mem_cons.mpr ⟨readable_names (by decide),
      List.forall_mem_singleton.mpr (readable_names (by decide))⟩, fun i member => ?_⟩
    obtain ⟨tag, inside, rfl⟩ := List.mem_map.mp member
    exact readable_main (isWord_importName (usable tag inside))
  · rw [defaultExport_indexModule] at exported
    cases exported
    refine balanced_objectLines fun entry member => ?_
    rcases List.mem_append.mp member with spread | last
    · obtain ⟨tag, inside, rfl⟩ := List.mem_map.mp spread
      have word := isWord_importName (usable tag inside)
      refine balanced_labelled (.of_letters rfl rfl) (balanced_of_isInert fun c part => ?_)
      exact isInert_of_isNamePart (word.parts c part)
    · obtain rfl := List.mem_singleton.mp last
      decide

theorem balanced_listLiteral {items : List String} (each : ∀ item ∈ items, Balanced item.toList) :
    Balanced (listLiteral items).toList := by
  have opens : Leads [] [']'] "[".toList := .of_letters rfl rfl
  have closes : Leads [']'] [] "]".toList := .of_letters rfl rfl
  have inside := (balanced_intercalate balanced_comma each).within [']']
  rw [listLiteral, String.toList_append, String.toList_append]
  exact (opens.append inside).append closes

theorem readable_connectionsModule {connections : List Connection}
    (identifiers : ∀ c ∈ connections, Naming.isIdentifier c.key.toList = true) :
    (connectionsModule connections).Readable := by
  have makers : ∀ name ∈ ["connection", "oauth2Connection", "OAuth2Type"],
      isName name.toList = true := by decide
  refine ⟨?_, fun d member => ?_, fun value exported => ?_⟩
  · rw [imports_connectionsModule]
    split
    · exact List.forall_mem_nil _
    · exact List.forall_mem_singleton.mpr (readable_names fun name member =>
        makers name ((connectionMakers_sublist connections).subset member))
  · obtain ⟨connection, inside, rfl⟩ := List.mem_map.mp member
    refine ⟨isName_of_isIdentifier (identifiers connection inside), nofun, ?_⟩
    exact balanced_layout (isExpression_connectionSteps connection)
  · cases exported
    refine balanced_listLiteral fun key member => ?_
    obtain ⟨connection, inside, rfl⟩ := List.mem_map.mp member
    have known := (List.mergeSort_perm connections _).mem_iff.mp inside
    exact balanced_of_isIdentifier (identifiers connection known)

theorem readable_manifestModule (key : String) (profile : Profile) (category : String) :
    (manifestModule key profile category).Readable := by
  refine ⟨?_, nofun, fun value exported => ?_⟩
  · rw [imports_manifestModule]
    exact List.forall_mem_cons.mpr ⟨readable_names (by decide),
      List.forall_mem_cons.mpr ⟨readable_names (by decide),
        List.forall_mem_cons.mpr ⟨readable_main (isWord_of_isName (by decide)),
          List.forall_mem_singleton.mpr (readable_main (isWord_of_isName (by decide)))⟩⟩⟩
  · cases exported
    have text {name : String} (named : isName name.toList = true) (value : String) :
        (Step.member name (stringLiteral value)).Closed :=
      closed_member named (balanced_stringLiteral value)
    refine balanced_layout (.of_block rfl rfl (by decide) (by decide) rfl rfl ?_)
    refine .cons (text (by decide) _) (.cons ?_ ?_)
    · refine .of_block rfl rfl (by decide) (by decide) rfl (fun _ => rfl) ?_
      refine .cons (text (by decide) _) (.cons (text (by decide) _) ?_)
      exact .cons (text (by decide) _) (.cons (text (by decide) _) .nil)
    · refine .cons (.of_line rfl (by decide) fun _ => rfl) ?_
      refine .cons (.of_line rfl (by decide) fun _ => rfl) ?_
      exact .cons (.of_line rfl (by decide) fun _ => rfl) .nil

/-! The functions of the client, line by line. -/

theorem isExpression_toAuthorizationHeaders : toAuthorizationHeaders.IsExpression := by
  have returned {opener text : String} {opening letters : List Char}
      (opens : opener = String.ofList opening) (same : text = String.ofList letters)
      (dark : opening.getLast?.any (fun c => !Text.isBlank c) = true)
      (solid : letters.getLast?.any (fun c => !Text.isBlank c) = true)
      (enters : Leads [] ['\x7d'] opening) (inside : ∀ closer, Leads [closer] [closer] letters) :
      (Step.block opener "\x7d" [.line text]).Closed :=
    .of_block opens rfl dark (by decide) enters (fun _ => rfl)
      (.cons (.of_line same solid inside) .nil)
  refine .of_block rfl rfl (by decide) (by decide) rfl rfl ?_
  refine .cons (.of_line rfl (by decide) fun _ => rfl) ?_
  refine .cons (returned rfl rfl (by decide) (by decide) rfl fun _ => rfl) (.cons .blankLine ?_)
  refine .cons (.of_line rfl (by decide) fun _ => rfl) ?_
  refine .cons (returned rfl rfl (by decide) (by decide) rfl fun _ => rfl) (.cons .blankLine ?_)
  refine .cons (.of_line rfl (by decide) fun _ => rfl) ?_
  refine .cons (.of_line rfl (by decide) fun _ => rfl) ?_
  refine .cons ?_ (.cons .blankLine (.cons ?_ .nil))
  · refine .of_block rfl rfl (by decide) (by decide) rfl (fun _ => rfl) (.cons (.line ?_ fun closer => ?_)
      (.cons (.of_line rfl (by decide) fun _ => rfl) .nil))
    · exact IsSolid.append (.of_letters rfl (by decide)) _
    · rw [String.toList_append, String.toList_ofList, String.toList_ofList]
      rfl
  · refine .of_block rfl rfl (by decide) (by decide) rfl (fun _ => rfl) (.cons (.line ?_ fun closer => ?_) .nil)
    · exact IsSolid.append (.of_letters rfl (by decide)) _
    · rw [String.toList_append, String.toList_ofList, String.toList_ofList]
      rfl

theorem isExpression_createClient : createClient.IsExpression := by
  refine .of_block rfl rfl (by decide) (by decide) rfl rfl ?_
  refine .cons ?_ (.cons .blankLine (.cons ?_ ?_))
  · refine .of_block rfl rfl (by decide) (by decide) rfl (fun _ => rfl) (.cons ?_ .nil)
    refine .of_block rfl rfl (by decide) (by decide) rfl (fun _ => rfl) ?_
    refine .cons (.of_line rfl (by decide) fun _ => rfl) ?_
    exact .cons (.of_line rfl (by decide) fun _ => rfl) .nil
  · refine .of_block rfl rfl (by decide) (by decide) rfl (fun _ => rfl) ?_
    refine .cons (.of_line rfl (by decide) fun _ => rfl) (.cons ?_ ?_)
    · refine .of_block rfl rfl (by decide) (by decide) rfl (fun _ => rfl) ?_
      refine .cons (.of_line rfl (by decide) fun _ => rfl) ?_
      exact .cons (.of_line rfl (by decide) fun _ => rfl) .nil
    · exact .cons (.of_line rfl (by decide) fun _ => rfl) .nil
  · exact .cons (.of_line rfl (by decide) fun _ => rfl) .nil

theorem readable_clientModule (baseUrl : String) {connections : List Connection} {seen : List String}
    (given : Naming.Given reservedConnectionKeys (connections.map Connection.key) seen) :
    (clientModule baseUrl connections).Readable := by
  refine ⟨?_, ?_, by simp [clientModule]⟩
  · rw [imports_clientModule baseUrl given.distinct]
    have renamed : IsEntry "createClient as createHttpClient".toList :=
      ⟨by decide, ⟨by simp [Text.isBlank], by simp [Text.isBlank]⟩, by decide⟩
    have inert : ∀ name ∈ ["HttpClient", "createClient as createHttpClient"],
        name.toList.all isInert = true := by decide
    have client : Import.Readable
        { source := httpClientModule, names := ["HttpClient", "createClient as createHttpClient"] } :=
      ⟨by simp, List.forall_mem_cons.mpr
        ⟨isEntry_of_isName (by decide), List.forall_mem_singleton.mpr renamed⟩,
        fun name member => List.all_eq_true.mp (inert name member)⟩
    refine List.forall_mem_append.mpr ⟨List.forall_mem_cons.mpr ⟨readable_names (by decide),
      List.forall_mem_singleton.mpr client⟩, ?_⟩
    split
    · exact List.forall_mem_nil _
    · exact List.forall_mem_singleton.mpr (readable_names fun name member =>
        isName_of_isIdentifier (given.identifiers name member))
  · have names : ∀ name ∈ ["baseUrl", "connectionKeys", "toAuthorizationHeaders", "createClient"],
        isName name.toList = true := by decide
    have annotation : ∀ type ∈ some "string[]", Balanced type.toList ∧ '=' ∉ type.toList := by
      rintro type ⟨⟩
      decide
    have keys : Balanced
        (listLiteral ((connections.map Connection.key).map fun key => key ++ ".key")).toList := by
      refine balanced_listLiteral fun item member => ?_
      obtain ⟨key, inside, rfl⟩ := List.mem_map.mp member
      have suffix : Balanced ".key".toList := .of_letters rfl rfl
      rw [String.toList_append]
      exact (balanced_of_isIdentifier (given.identifiers key inside)).append suffix
    refine List.forall_mem_cons.mpr ⟨⟨names "baseUrl" (by simp), by simp, ?_⟩,
      List.forall_mem_cons.mpr ⟨⟨names "connectionKeys" (by simp), annotation, keys⟩,
        List.forall_mem_cons.mpr ⟨⟨names "toAuthorizationHeaders" (by simp), by simp, ?_⟩,
          List.forall_mem_singleton.mpr ⟨names "createClient" (by simp), by simp, ?_⟩⟩⟩⟩
    · exact balanced_stringLiteral baseUrl
    · exact balanced_layout isExpression_toAuthorizationHeaders
    · exact balanced_layout isExpression_createClient

/-- All files of a component are read back from their texts. -/
theorem readable_sourceFiles {document : Openapi.Document} {fallback : Option String}
    {iconPath : String} {blueprint : Blueprint} {log log' : Log}
    (assembled : (assemble document fallback iconPath).run log = (.ok blueprint, log'))
    (key category : String) : ∀ file ∈ sourceFiles key blueprint category, file.Readable := by
  have named := wellNamed_assemble assembled
  obtain ⟨⟨_, _, actions⟩, -⟩ := assemble_ok assembled
  obtain ⟨seen, distinguished⟩ := buildActions_distinguished actions
  obtain ⟨_, given⟩ := named.connections
  have definable : ∀ action ∈ blueprint.actions, Definable action := by
    intro action member
    obtain ⟨endpoint, -, performs⟩ := exists_of_mem_right distinguished.performed member
    exact definable_of_performs performs
      (distinguished.given.identifiers _ (List.mem_map_of_mem member))
  intro file member
  rcases mem_sourceFiles.mp member with rfl | ⟨tag, -, rfl⟩ | rfl | rfl | rfl
  · exact readable_connectionsModule fun connection known =>
      given.identifiers _ (List.mem_map_of_mem known)
  · exact readable_groupModule tag fun action chosen =>
      definable action (List.mem_filter.mp chosen).1
  · refine readable_indexModule (nodup_groupTags _) fun tag known => ?_
    obtain ⟨action, inside, rfl⟩ := mem_groupTags.mp known
    obtain ⟨path, tagged⟩ := named.tags action inside
    exact Naming.isTag_groupTag tagged
  · exact readable_clientModule blueprint.baseUrl given
  · exact readable_manifestModule key blueprint.profile category

end ApiCompiler.Modules
