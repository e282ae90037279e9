import ApiCompiler.Proofs.Derivation.Inputs
import ApiCompiler.Proofs.Derivation.WrittenNames
import ApiCompiler.Proofs.Loading.Composition

/-!
The properties of a schema and of those it is composed of: read off an expansion, they are the ones
that were written.
-/

namespace ApiCompiler.Derivation

open Openapi Loading

/-! Flattening. -/

theorem resolveMembers_inline (members : List Schema) (location : String) (index : Nat) :
    resolveMembers location index (members.map .inline) = .ok members := by
  induction members generalizing index with
  | nil => rfl
  | cons first members ih =>
      rw [List.map_cons, resolveMembers, ih]
      rfl

theorem mapM_resolved {location : String} {named : List (String × Node Schema)}
    (inline : ∀ property ∈ named, ∃ value, property.2 = .inline value) :
    ∃ properties : List (String × Schema),
      named.mapM (fun property => do
        return (property.1, ← resolved property.2 (propertyLocation location property.1))) =
          Except.ok properties ∧
      properties.map Prod.fst = named.map Prod.fst := by
  induction named with
  | nil => exact ⟨[], rfl, rfl⟩
  | cons first named ih =>
      obtain ⟨value, here⟩ := inline first List.mem_cons_self
      obtain ⟨properties, later, names⟩ :=
        ih fun property member => inline property (List.mem_cons_of_mem _ member)
      refine ⟨(first.1, value) :: properties, ?_, ?_⟩
      · rw [List.mapM_cons, later, here]
        rfl
      · rw [List.map_cons, List.map_cons, names]

/-- A schema composed of objects in place has all their properties, and requires what they require. -/
theorem flattenProperties_inline {schema : Schema} {members : List Schema}
    (composed : schema.allOf = members.map .inline)
    (inline : ∀ part ∈ schema :: members, Inline part) (location : String) :
    ∃ properties, flattenProperties schema location =
        .ok (properties, (schema :: members).flatMap Schema.required) ∧
      ∀ name, name ∈ properties.map Prod.fst ↔
        ∃ part ∈ schema :: members, name ∈ part.properties.map Prod.fst := by
  have all (property : String × Node Schema)
      (member : property ∈ Named.ofList ((schema :: members).flatMap Schema.properties)) :
      ∃ value, property.2 = .inline value := by
    obtain ⟨part, inside, member⟩ := List.mem_flatMap.mp (Named.mem_ofList member)
    exact inline part inside property member
  obtain ⟨properties, resolves, names⟩ := @mapM_resolved location _ all
  refine ⟨properties, ?_, fun name => ?_⟩
  · rw [flattenProperties, composed, resolveMembers_inline]
    exact bind_eq_ok.mpr ⟨members, rfl, bind_eq_ok.mpr ⟨properties, resolves, rfl⟩⟩
  · rw [names, Named.ofList, Named.mem_map_fst_override, List.map_flatMap, List.mem_flatMap]
    simp

/-! Composition. -/

/-- What an item of a composition contributes: itself if it is in place, else what it refers to. -/
inductive Contributes (job : Loading.Job) (home : Target) : Value → Value → Prop
  | inPlace {item : Value} (written : WrittenOut item) : Contributes job home item item
  | referred {node : Members Value} {reference key : String} {next : Target} (alone : node.length ≤ 1)
      (refers : Loading.reference? node = some reference)
      (link : job.link? home reference = some key) (leads : job.target? home reference = some next)
      (written : WrittenOut next.value) : Contributes job home (.object node) next.value

/-- A schema has the names that are written in a value, or no properties if that is the whole again. -/
structure Tells (whole raw : Value) (schema : Schema) : Prop where
  inline : Inline schema
  required : schema.required = requiredNames raw
  properties : schema.properties.map Prod.fst = propertyNames raw ∨
    raw = whole ∧ schema.properties = []

/-- An expansion refers to nothing, and the schema it is tells of what an item contributes. -/
def Transmits (job : Loading.Job) (home : Target) (item : Value) (part : Expansion) : Prop :=
  part.reference? = none ∧ ∀ raw schema, Contributes job home item raw →
    Schema.check part = .ok schema → Tells home.value raw schema

theorem tells_of_transmits {job : Loading.Job} {home : Target} {items raws : List Value}
    {parts : List Expansion} {nodes : List (Node Schema)}
    (transmits : List.Forall₂ (Transmits job home) items parts)
    (contribute : List.Forall₂ (Contributes job home) items raws)
    (passed : List.Forall₂ (fun part node => Node.check Schema.check part = .ok node) parts nodes) :
    ∃ schemas, nodes = schemas.map .inline ∧ List.Forall₂ (Tells home.value) raws schemas := by
  induction transmits generalizing raws nodes with
  | nil =>
      cases contribute
      cases passed
      exact ⟨[], rfl, .nil⟩
  | cons here _ ih =>
      cases contribute with
      | cons contributes contribute =>
        cases passed with
        | cons checked passed =>
          obtain ⟨schema, rfl, passes⟩ := Node.check_inline checked here.1
          obtain ⟨schemas, rfl, tells⟩ := ih contribute passed
          exact ⟨schema :: schemas, rfl, .cons (here.2 _ schema contributes passes) tells⟩

theorem WrittenOut.withoutNested {value : Value} (written : WrittenOut value) :
    WrittenOut (Inlining.withoutNested value) := by
  obtain ⟨members, ⟨rfl, none⟩, inPlace⟩ := written
  refine ⟨_, ⟨rfl, ?_⟩, fun name inside part found => ?_⟩
  · exact congrArg (Option.bind · Value.text?) (withoutNested_find? _ members)
  · have kept := withoutNested_find? name members
    rw [Inlining.withoutNested, Value.member?, found] at kept
    split at kept
    · cases kept
    · exact inPlace name inside part kept.symm

theorem propertyNames_withoutNested {value : Value} (written : WrittenOut value) :
    propertyNames (Inlining.withoutNested value) = [] := by
  obtain ⟨members, ⟨rfl, -⟩, -⟩ := written
  rw [propertyNames, withoutNested_find?]
  rfl

theorem requiredNames_withoutNested {value : Value} (written : WrittenOut value) :
    requiredNames (Inlining.withoutNested value) = requiredNames value := by
  obtain ⟨members, ⟨rfl, -⟩, -⟩ := written
  rw [requiredNames, withoutNested_find?]
  rfl

section Tells

variable {job : Loading.Job} {home : Target} {key : String} {raw : Value} {expansion : Expansion}
  {schema : Schema} (tidy : job.Tidy)
include tidy

theorem tells_of_check {scope : Scope} {whole : Value}
    (forms : Forms job.Turned scope raw expansion) (written : WrittenOut raw)
    (passed : Schema.check expansion = .ok schema) : Tells whole raw schema := by
  obtain ⟨properties, required⟩ := names_of_check (forms.textless tidy) written passed
  exact ⟨inline_of_check forms tidy written passed, required, .inl properties⟩

omit tidy in
theorem tells_of_cut {whole : Value} (written : WrittenOut whole)
    (passed : Schema.check (.ofValue (Inlining.withoutNested whole)) = .ok schema) :
    Tells whole whole schema := by
  obtain ⟨properties, required⟩ := names_of_check
    (forms_ofValue ⟨[], [], true⟩ (Inlining.withoutNested whole)) written.withoutNested passed
  rw [propertyNames_withoutNested written, List.map_eq_nil_iff] at properties
  refine ⟨?_, required.trans (requiredNames_withoutNested written), .inr ⟨rfl, properties⟩⟩
  rw [Inline, properties]
  rintro _ ⟨⟩

variable {members : Members Value} {items : List Value} (own : IsOwn home.value members)
  (list : members.find? "allOf" = some (.list items)) (written : WrittenOut home.value)
  (composes : job.Composes [key] home expansion) (cut : job.HoldsCut key home expansion)
include own list composes cut

/-- A schema in the composition of a target tells of what the item that it comes from contributes. -/
theorem Contributes.tells (unique : ∀ other, job.Filed key other → other = home) (met : job.Met home)
    (written : WrittenOut home.value) {i : Nat} {item : Value} {part : Expansion} {scope : Scope}
    (place : items[i]? = some item) (there : composedAt expansion [i] = some part)
    (forms : Forms job.Turned scope item part) (contributes : Contributes job home item raw)
    (passed : Schema.check part = .ok schema) : Tells home.value raw schema := by
  cases contributes with
  | inPlace written => exact tells_of_check tidy forms written passed
  | @referred node reference other next alone refers link leads written' =>
      by_cases same : other = key
      · subst same
        have inside : reference ∈ referencesOf home.value := by
          rw [own.1, referencesOf]
          refine List.mem_append_right _ ((referencesOf_find? list).subset ?_)
          exact (referencesOf_getElem? place).subset (mem_referencesOf_object refers)
        have filed : job.key? home reference = some other := (Loading.Job.link?_eq_some.mp link).2
        obtain rfl := unique next ⟨home, met, reference, inside, filed, leads⟩
        rw [cut members items i node reference own list place alone refers link] at there
        cases there
        exact tells_of_cut written passed
      · obtain ⟨part', scope', there', forms'⟩ := composes [(i, other)] next
          (.cons own list place alone refers link leads (.nil next)) (List.nodup_singleton _)
          (by simpa using same)
        rw [List.map_singleton, there] at there'
        cases there'
        exact tells_of_check tidy forms' written' passed

/-- So the schema of a target and those it is composed of tell of the target and of its composition. -/
theorem tells_of_composes (unique : ∀ other, job.Filed key other → other = home) (met : job.Met home)
    (written : WrittenOut home.value) {raws : List Value}
    (contribute : List.Forall₂ (Contributes job home) items raws)
    (passed : Schema.check expansion = .ok schema) :
    schema.properties.map Prod.fst = propertyNames home.value ∧
      ∃ schemas, schema.allOf = schemas.map .inline ∧
        List.Forall₂ (Tells home.value) (home.value :: raws) (schema :: schemas) := by
  obtain ⟨_, scope, ⟨⟩, forms⟩ := composes [] home (.nil home) List.nodup_nil
    (fun _ absurd => nomatch absurd)
  have whole : Tells home.value home.value schema := tells_of_check tidy forms written passed
  refine ⟨(names_of_check (forms.textless tidy) written passed).1, ?_⟩
  obtain ⟨expansions, rfl, inside⟩ := forms.of_own own
  obtain ⟨_, allOf, _, -, hasAllOf, -, -, isAllOf, -⟩ := Schema.ofMembers_ok passed
  rcases inside.find? "allOf" with ⟨absent, -⟩ | ⟨_, part, found, found', here⟩
  · rw [list] at absent
    cases absent
  · rw [list] at found
    cases found
    rw [Forms] at here
    obtain ⟨parts, rfl, formed⟩ := here
    rcases Members.nullable_eq_ok hasAllOf with ⟨-, null⟩ | ⟨part', nodes, found'', checked, given⟩
    · cases null _ found'
    · rw [found'] at found''
      cases found''
      obtain ⟨_, ⟨⟩, each⟩ := Shape.list_eq_ok.mp checked
      rw [isAllOf, given]
      -- An item of `allOf` stands at the same place before and after it is composed.
      have transmits : List.Forall₂ (Transmits job home) items parts := by
        refine List.forall₂_of_length_eq_of_get formed.forall₂.length_eq fun i within within' => ?_
        have forms := formed.forall₂.get within within'
        have there : composedAt (.ofMembers expansions) [i] = some (parts.get ⟨i, within'⟩) := by
          rw [Expansion.ofMembers, composedAt, found']
          exact congrArg (Option.bind · _) (List.getElem?_eq_getElem within')
        exact ⟨forms.reference? tidy, fun raw schema contributes passed =>
          contributes.tells tidy own list composes cut unique met written
            (List.getElem?_eq_getElem within) there forms passed⟩
      obtain ⟨schemas, same, tells⟩ := tells_of_transmits transmits contribute each
      exact ⟨schemas, same, .cons whole tells⟩

end Tells

theorem flattenProperties_tells {whole : Value} {schema : Schema} {raws : List Value}
    {schemas : List Schema} (composed : schema.allOf = schemas.map .inline)
    (tells : List.Forall₂ (Tells whole) (whole :: raws) (schema :: schemas))
    (written : schema.properties.map Prod.fst = propertyNames whole) (place : String) :
    ∃ properties required, flattenProperties schema place = .ok (properties, required) ∧
      (∀ name, name ∈ properties.map Prod.fst ↔
        ∃ raw ∈ whole :: raws, name ∈ propertyNames raw) ∧
      ∀ name, name ∈ required ↔ ∃ raw ∈ whole :: raws, name ∈ requiredNames raw := by
  obtain ⟨properties, flat, names⟩ := flattenProperties_inline composed (fun part inside =>
    (exists_of_mem_right tells inside).choose_spec.2.inline) place
  refine ⟨properties, _, flat, fun name => ?_, fun name => ?_⟩
  · rw [names]
    constructor
    · rintro ⟨part, inside, member⟩
      obtain ⟨raw, there, telling⟩ := exists_of_mem_right tells inside
      rcases telling.properties with same | ⟨-, none⟩
      · exact ⟨raw, there, same ▸ member⟩
      · rw [none] at member
        cases member
    · rintro ⟨raw, inside, member⟩
      obtain ⟨part, there, telling⟩ := exists_of_mem_left tells inside
      rcases telling.properties with same | ⟨rfl, -⟩
      · exact ⟨part, there, same ▸ member⟩
      · exact ⟨schema, List.mem_cons_self, written ▸ member⟩
  · rw [List.mem_flatMap]
    constructor
    · rintro ⟨part, inside, member⟩
      obtain ⟨raw, there, telling⟩ := exists_of_mem_right tells inside
      exact ⟨raw, there, telling.required ▸ member⟩
    · rintro ⟨raw, inside, member⟩
      obtain ⟨part, there, telling⟩ := exists_of_mem_left tells inside
      exact ⟨part, there, telling.required ▸ member⟩

/-- What a lone reference in a document gives way to if it is the first one that is followed. -/
def expansionOf (job : Loading.Job) (reference : String) : Except Problem Expansion :=
  ((walk (Expanding.followRoot job.around Survey.standardLimit job.document job.location) none
    (referenceTo reference)).run { survey := { documents := job.known } }).1

def schemaOf? (result : Except Problem Expansion) : Option Schema := do
  (Schema.check (← result.toOption)).toExcept.toOption

theorem schemaOf?_isSome {expansion : Expansion} (valid : (schemaOf? (.ok expansion)).isSome) :
    ∃ schema, Schema.check expansion = .ok schema := by
  obtain ⟨schema, valid⟩ := Option.isSome_iff_exists.mp valid
  change (Schema.check expansion).toExcept.toOption = some schema at valid
  cases passed : Schema.check expansion with
  | bad issues => rw [passed] at valid; cases valid
  | ok value => exact ⟨value, rfl⟩

/-- The names of the properties that an expansion is flattened to. -/
def flattened? (place : String) (result : Except Problem Expansion) : Option (List String) := do
  let (properties, _) ← (flattenProperties (← schemaOf? result) place).toOption
  return properties.map Prod.fst

/-- What is wrong with the properties of an expansion that is a schema. -/
def unflattened? (place : String) (result : Except Problem Expansion) : Option Problem := do
  match flattenProperties (← schemaOf? result) place with
  | .ok _ => none
  | .error problem => some problem

def shelfValue : Value :=
  .record [("allOf", .list [referenceTo "#/sized"]), ("properties", .record [("id", .record [])]),
    ("required", .list [.text "id"])]

def sizedValue : Value :=
  .record [("properties", .record [("size", .record []), ("inner", referenceTo "#/shelf")]),
    ("required", .list [.text "size"])]

def namedValue : Value :=
  .record [("properties", .record [("name", .record [])])]

def membersValue : Value :=
  .record [("items", referenceTo "#/folder"), ("id", .record [])]

/-- A value that is composed of another one and refers to its properties. -/
def folderValue : Value :=
  .record [("allOf", .list [referenceTo "#/named"]), ("properties", referenceTo "#/members")]

/-- A document with two targets that are composed of others and lie on a circle. -/
def libraryTree : Value :=
  .record [("first", referenceTo "#/folder"), ("second", referenceTo "#/shelf"),
    ("folder", folderValue), ("named", namedValue), ("members", membersValue),
    ("shelf", shelfValue), ("sized", sizedValue)]

def fileWork (tree : Value) : Work :=
  { loader := { documents := [("/a", tree)] }, world := {} }

abbrev fileJob (tree : Value) : Loading.Job :=
  (fileWork tree).job tree (some "/a")

def libraryTarget (value : Value) : Target :=
  ⟨value, libraryTree, some "/a"⟩

theorem library_tidy : (fileJob libraryTree).Tidy := by
  refine Loading.Job.tidy_of_own fun reference member => ?_
  have listed : reference ∈ ["#/folder", "#/shelf", "#/named", "#/members", "#/folder", "#/sized",
    "#/shelf"] := member
  simp only [List.mem_cons, List.not_mem_nil, or_false] at listed
  rcases listed with rfl | rfl | rfl | rfl | rfl | rfl | rfl <;> exact ⟨_, rfl, rfl⟩

def wordTree : Value :=
  .record [("start", referenceTo "#/whole"),
    ("whole", .record [("allOf", .list [.record [("$ref", referenceTo "#/word")]])]),
    ("word", .text "there")]

def wholeTree : Value :=
  .record [("start", referenceTo "#/whole"),
    ("whole", .record [("allOf", .list [referenceTo "#/part"]), ("not", referenceTo "x:b#/x")]),
    ("part", schemaWith "id")]

def wholeWork : Work :=
  { loader := { documents := [("/a", wholeTree)] }, world := { access := { presence := barred } } }

theorem written_named : WrittenOut namedValue :=
  writtenOut_of rfl (by rintro _ ⟨⟩; rfl) (by rintro _ ⟨⟩)

theorem written_sized : WrittenOut sizedValue :=
  writtenOut_of rfl (by rintro _ ⟨⟩; rfl) (by rintro _ ⟨⟩)

theorem written_shelf : WrittenOut shelfValue :=
  writtenOut_of rfl (by rintro _ ⟨⟩; rfl) (by rintro _ ⟨⟩)

/-- What is known once all is explored that the shelf refers to. -/
def shelfSurvey : Survey :=
  { documents := [("/a", libraryTree)]
    targets := [("/a#/shelf", libraryTarget shelfValue), ("/a#/sized", libraryTarget sizedValue)]
    edges := [("/a#/shelf", ["/a#/sized"]), ("/a#/sized", ["/a#/shelf"])] }

deriving instance DecidableEq for Target, Survey

theorem shelf_reached : (fileJob libraryTree).Reached { survey := shelfSurvey } :=
  have explored : (Survey.explore (surroundings (fileWork libraryTree)) 10 ["/a#/shelf"]).run
    ((Survey.mk (fileWork libraryTree).loader.documents [] []).enter
      (surroundings (fileWork libraryTree)) libraryTree (some "/a") "#/shelf") =
        (.ok (), shelfSurvey) := Prod.ext (by decide +kernel) (by decide +kernel)
  .explored .start (List.mem_cons_of_mem _ List.mem_cons_self) rfl explored

end ApiCompiler.Derivation
