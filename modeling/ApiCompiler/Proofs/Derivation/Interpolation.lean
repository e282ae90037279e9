import ApiCompiler.Proofs.Derivation.Actions
import ApiCompiler.Proofs.Derivation.PathTemplate

/-!
Interpolations in the addresses of requests: when each of them is one of the arguments of the
generated function, and no text of a path is run as an expression.
-/

namespace ApiCompiler.Script

/-- The pieces of a template literal. -/
def readTemplate? (literal : String) : Option (List Piece) :=
  match literal.toList with
  | '\x60' :: text =>
      match readPieces? none text with
      | some (pieces, []) => some pieces
      | _ => none
  | _ => none

/-- Every interpolation of a template literal is one of the names. -/
def Interpolates (names : List String) (literal : String) : Prop :=
  ∃ pieces, readTemplate? literal = some pieces ∧ ∀ name, .hole name ∈ pieces → name ∈ names

/-- The rest of a template, in which every interpolation is one of the names. -/
def Completes (names : List String) (text : List Char) : Prop :=
  ∃ pieces, readPieces? none text = some (pieces, []) ∧ ∀ name, .hole name ∈ pieces → name ∈ names

section Completes

variable {names : List String} {text : List Char}

theorem interpolates_iff_completes (text : String) :
    Interpolates names (templateLiteral text) ↔
      Completes names (text.toList.flatMap templateChar ++ ['\x60']) := by
  have letters : (templateLiteral text).toList =
      '\x60' :: (text.toList.flatMap templateChar ++ ['\x60']) := by
    rw [templateLiteral, String.toList_ofList]
    rfl
  rw [Interpolates, readTemplate?, letters]
  simp only
  constructor
  · rintro ⟨pieces, read, bound⟩
    split at read
    · rename_i pieces' ends
      cases read
      exact ⟨pieces, ends, bound⟩
    · cases read
  · rintro ⟨pieces, read, bound⟩
    exact ⟨pieces, by rw [read], bound⟩

theorem completes_end : Completes names ['\x60'] :=
  ⟨[], by rw [readPieces?], nofun⟩

theorem completes_of_map {whole : List Char} (c : Char)
    (read : readPieces? none whole =
      (readPieces? none text).map fun (pieces, rest) => (.character c :: pieces, rest)) :
    Completes names whole ↔ Completes names text := by
  constructor
  · rintro ⟨pieces, found, bound⟩
    rw [read, Option.map_eq_some_iff] at found
    obtain ⟨⟨others, rest⟩, ends, ⟨⟩⟩ := found
    exact ⟨others, ends, fun name member => bound name (List.mem_cons_of_mem _ member)⟩
  · rintro ⟨pieces, found, bound⟩
    refine ⟨.character c :: pieces, by rw [read, found]; rfl, fun name member => bound name ?_⟩
    exact (List.mem_cons.mp member).resolve_left nofun

theorem completes_character {c : Char} (noHole : c = '$' → text.head? ≠ some '\x7b') :
    Completes names (templateChar c ++ text) ↔ Completes names text := by
  by_cases other : c = '\r'
  · subst other
    have plain : templateChar '\r' ++ text = '\r' :: text := rfl
    rw [plain]
    by_cases ended : text.head? = some '\n'
    · -- Both characters are one line end, and so is the second alone.
      obtain ⟨rest, rfl⟩ := List.head?_eq_some_iff.mp ended
      have both : Completes names ('\r' :: '\n' :: rest) ↔ Completes names rest :=
        completes_of_map '\n' (by rw [readPieces?]; cases readPieces? none rest <;> rfl)
      have one : Completes names ('\n' :: rest) ↔ Completes names rest :=
        completes_of_map '\n' (@readPieces?_character '\n' rest (by decide) (by simp))
      exact both.trans one.symm
    · refine completes_of_map '\n' ?_
      rw [readPieces?]
      · cases readPieces? none text <;> rfl
      · rintro rest rfl
        exact ended rfl
  · exact completes_of_map c (readPieces?_character other noHole)

/-! Interpolations. -/

theorem flatMap_templateChar_of_isAlphanum {letters : List Char}
    (usable : ∀ c ∈ letters.flatMap templateChar, c.isAlphanum = true) :
    letters.flatMap templateChar = letters := by
  induction letters with
  | nil => rfl
  | cons c letters ih =>
      rw [List.flatMap_cons] at usable ⊢
      obtain ⟨first, later⟩ := List.forall_mem_append.mp usable
      have plain : templateChar c = [c] := by
        rw [templateChar] at first ⊢
        split_ifs at first ⊢
        · exact absurd (first '\\' (by simp)) (by decide)
        · exact absurd (first '\\' (by simp)) (by decide)
        · rfl
      rw [plain, ih later]
      rfl

theorem closing_not_mem_template {letters : List Char} (unclosed : '\x7d' ∉ letters) :
    '\x7d' ∉ letters.flatMap templateChar := by
  intro inside
  obtain ⟨c, member, made⟩ := List.mem_flatMap.mp inside
  rw [templateChar] at made
  split_ifs at made
  · simp at made
  · simp at made
  · exact unclosed (List.mem_singleton.mp made ▸ member)

theorem readName?_whole {letters : List Char} {name : String}
    (read : readName? letters = some (name, [])) : name.toList = letters := by
  cases letters with
  | nil => cases read
  | cons c letters =>
      rw [readName?] at read
      split at read
      · obtain ⟨rfl, ended⟩ := Prod.mk.inj (Option.some.inj read)
        have joined := List.takeWhile_append_dropWhile (p := isNamePart) (l := c :: letters)
        rw [ended, List.append_nil] at joined
        rw [String.toList_ofList, joined]
      · cases read

theorem completes_hole (identifiers : ∀ name ∈ names, Naming.isIdentifier name.toList = true)
    {key : List Char} (unclosed : '\x7d' ∉ key) :
    Completes names ('$' :: '\x7b' :: key.flatMap templateChar ++ '\x7d' :: text) ↔
      String.ofList key ∈ names ∧ Completes names text := by
  constructor
  · rintro ⟨pieces, read, bound⟩
    rw [List.cons_append, List.cons_append, readPieces?,
      readPieces?_name [] (closing_not_mem_template unclosed), List.nil_append, readPieces?] at read
    simp only [Option.bind_eq_bind, Option.bind_eq_some_iff] at read
    obtain ⟨⟨name, more⟩, named, ⟨others, rest⟩, ends, read⟩ := read
    simp only at read
    split at read
    · rename_i whole
      cases read
      obtain rfl := List.isEmpty_iff.mp whole
      have member := bound name (by simp)
      -- What is read is the name of an argument, so it has letters only and escaping left it alone.
      have letters := readName?_whole named
      have usable := Naming.isAlphanum_of_isIdentifier (identifiers name member)
      rw [letters] at usable
      rw [flatMap_templateChar_of_isAlphanum usable] at letters
      rw [← letters, String.ofList_toList]
      exact ⟨member, others, ends, fun name later => bound name (List.mem_cons_of_mem _ later)⟩
    · cases read
  · rintro ⟨member, pieces, read, bound⟩
    have identifier := identifiers _ member
    rw [String.toList_ofList] at identifier
    rw [Derivation.flatMap_templateChar_identifier identifier]
    refine ⟨.hole (String.ofList key) :: pieces, by rw [readPieces?_hole identifier, read]; rfl, ?_⟩
    intro name inside
    rcases List.mem_cons.mp inside with same | later
    · cases same
      exact member
    · exact bound name later

theorem not_completes_empty : ¬ Completes names ('$' :: '\x7b' :: '\x7d' :: text) := by
  rintro ⟨pieces, read, -⟩
  rw [readPieces?, readPieces?] at read
  cases read

theorem not_completes_unclosed (unclosed : '\x7d' ∉ text) :
    ¬ Completes names ('$' :: '\x7b' :: text) := by
  rintro ⟨pieces, read, -⟩
  have open_ := readPieces?_name [] unclosed []
  rw [List.append_nil] at open_
  rw [readPieces?, open_, readPieces?] at read
  cases read

end Completes

end ApiCompiler.Script

namespace ApiCompiler.Derivation

open Openapi Component Script

/-! Addresses. -/

/-- A dollar sign and a brace that open no name in braces. -/
def Stray (path : String) : Prop :=
  [.character '$', .character '\x7b'] <:+: pathPieces path.toList

theorem placeholder?_eq_none {rest : List Char} (none : placeholder? ('\x7b' :: rest) = none) :
    rest.head? = some '\x7d' ∨ '\x7d' ∉ rest := by
  by_cases closed : '\x7d' ∈ rest
  · left
    obtain ⟨name, after, rfl, unclosed⟩ := List.eq_append_cons_of_mem closed
    cases name with
    | nil => rfl
    | cons c name =>
        have found : placeholder? ('\x7b' :: (c :: name ++ '\x7d' :: after)) =
            some (c :: name, after) :=
          placeholder?_eq_some.mpr ⟨rfl, List.cons_ne_nil c name, unclosed⟩
        cases none.symm.trans found
  · exact .inr closed

theorem pathPieces_unclosed {path : List Char} (unclosed : '\x7d' ∉ path) :
    pathPieces path = path.map .character := by
  induction path with
  | nil => exact pathPieces_nil
  | cons c path ih =>
      have other : placeholder? (c :: path) = none := by
        cases found : placeholder? (c :: path) with
        | none => rfl
        | some cut =>
            obtain ⟨same, -⟩ := placeholder?_eq_some.mp found
            exact absurd (by simp [same]) unclosed
      rw [pathPieces_other other, ih fun inside => unclosed (List.mem_cons_of_mem _ inside)]
      rfl

def templateOf (keyOf : String → String) (pieces : List Piece) : List Char :=
  (pieces.flatMap (interpolated keyOf)).flatMap templateChar

section Template

variable {keyOf : String → String} {names : List String}

theorem templateOf_character (keyOf : String → String) (c : Char) (pieces : List Piece) :
    templateOf keyOf (.character c :: pieces) = templateChar c ++ templateOf keyOf pieces := by
  rw [templateOf, List.flatMap_cons, List.flatMap_append, interpolated, List.flatMap_singleton]
  rfl

theorem templateOf_hole (keyOf : String → String) (name : String) (pieces : List Piece) :
    templateOf keyOf (.hole name :: pieces) =
      '$' :: '\x7b' :: (keyOf name).toList.flatMap templateChar ++
        '\x7d' :: templateOf keyOf pieces := by
  rw [templateOf, List.flatMap_cons, List.flatMap_append, interpolated]
  simp only [List.cons_append, List.flatMap_cons, List.flatMap_append, List.append_assoc]
  rfl

theorem templateOf_unclosed {path : List Char} (unclosed : '\x7d' ∉ path) :
    '\x7d' ∉ templateOf keyOf (pathPieces path) := by
  have same : (pathPieces path).flatMap (interpolated keyOf) = path := by
    rw [pathPieces_unclosed unclosed, List.flatMap_map]
    exact List.flatMap_singleton' path
  rw [templateOf, same]
  exact closing_not_mem_template unclosed

theorem head?_templateOf {pieces : List Piece}
    (braced : (templateOf keyOf pieces ++ ['\x60']).head? = some '\x7b') :
    pieces.head? = some (.character '\x7b') := by
  cases pieces with
  | nil => cases braced
  | cons piece pieces =>
      cases piece with
      | hole name =>
          rw [templateOf_hole] at braced
          cases braced
      | character c =>
          rw [templateOf_character, templateChar] at braced
          split_ifs at braced
          · cases braced
          · cases braced
          · cases braced
            rfl

theorem not_completes_stray {path : List Char}
    (braced : (pathPieces path).head? = some (.character '\x7b')) :
    ¬ Completes names ('$' :: (templateOf keyOf (pathPieces path) ++ ['\x60'])) := by
  cases path with
  | nil => simp at braced
  | cons c rest =>
      cases none : placeholder? (c :: rest) with
      | some cut =>
          rw [pathPieces_placeholder none] at braced
          cases braced
      | none =>
          rw [pathPieces_other none] at braced ⊢
          cases braced
          rw [templateOf_character]
          show ¬ Completes names
            ('$' :: '\x7b' :: (templateOf keyOf (pathPieces rest) ++ ['\x60']))
          rcases placeholder?_eq_none none with empty | unclosed
          · obtain ⟨rest, rfl⟩ := List.head?_eq_some_iff.mp empty
            have other : placeholder? ('\x7d' :: rest) = Option.none := rfl
            rw [pathPieces_other other, templateOf_character]
            exact not_completes_empty
          · refine not_completes_unclosed ?_
            simpa using templateOf_unclosed unclosed

theorem stray_cons {piece : Piece} {pieces : List Piece} :
    [.character '$', .character '\x7b'] <:+: piece :: pieces ↔
      (piece = .character '$' ∧ pieces.head? = some (.character '\x7b')) ∨
        [.character '$', .character '\x7b'] <:+: pieces := by
  have second : [.character '\x7b'] <+: pieces ↔ pieces.head? = some (.character '\x7b') := by
    cases pieces with
    | nil => simp
    | cons other pieces => simp [List.cons_prefix_cons, eq_comm]
  rw [List.infix_cons_iff, List.cons_prefix_cons, second, eq_comm]

/-- The template of a path completes exactly if its names are known and no brace is stray. -/
theorem completes_templateOf (identifiers : ∀ name ∈ names, Naming.isIdentifier name.toList = true)
    (path : List Char)
    (closed : ∀ name, .hole name ∈ pathPieces path → '\x7d' ∉ (keyOf name).toList) :
    Completes names (templateOf keyOf (pathPieces path) ++ ['\x60']) ↔
      (∀ name, .hole name ∈ pathPieces path → keyOf name ∈ names) ∧
        ¬ [.character '$', .character '\x7b'] <:+: pathPieces path := by
  fun_induction pathPieces path with
  | case1 => exact iff_of_true completes_end ⟨by simp, by simp⟩
  | case2 c path name after found ih =>
      have tail := ih fun name member => closed name (List.mem_cons_of_mem _ member)
      have key := closed (String.ofList name) (by simp)
      have written : templateOf keyOf (.hole (String.ofList name) :: pathPieces after) ++ ['\x60'] =
          '$' :: '\x7b' :: (keyOf (String.ofList name)).toList.flatMap templateChar ++
            '\x7d' :: (templateOf keyOf (pathPieces after) ++ ['\x60']) := by
        rw [templateOf_hole, List.append_assoc]
        rfl
      rw [written, completes_hole identifiers key, String.ofList_toList, tail, stray_cons]
      simp only [List.mem_cons, Piece.hole.injEq, forall_eq_or_imp, reduceCtorEq, false_and,
        false_or, and_assoc]
  | case3 c path other ih =>
      have tail := ih fun name member => closed name (List.mem_cons_of_mem _ member)
      rw [stray_cons, templateOf_character, List.append_assoc]
      by_cases stray : c = '$' ∧ (pathPieces path).head? = some (.character '\x7b')
      · obtain ⟨rfl, braced⟩ := stray
        exact iff_of_false (not_completes_stray braced) fun known =>
          known.2 (.inl ⟨rfl, braced⟩)
      · have noHole : c = '$' →
            (templateOf keyOf (pathPieces path) ++ ['\x60']).head? ≠ some '\x7b' :=
          fun dollar braced => stray ⟨dollar, head?_templateOf braced⟩
        rw [completes_character noHole, tail]
        simp only [List.mem_cons, reduceCtorEq, false_or, Piece.character.injEq, stray]

end Template

/-! Derived actions. -/

theorem closing_not_mem_hole {path : List Char} {name : String}
    (hole : .hole name ∈ pathPieces path) : '\x7d' ∉ name.toList := by
  fun_induction pathPieces path with
  | case1 => cases hole
  | case2 c path letters after found ih =>
      obtain ⟨-, -, unclosed⟩ := placeholder?_eq_some.mp found
      rcases List.mem_cons.mp hole with same | later
      · cases same
        rwa [String.toList_ofList]
      · exact ih later
  | case3 c path other ih =>
      exact ih (by simpa using hole)

theorem pathKey_cases (inputs : List Input) (name : String) :
    (∃ input ∈ inputs, input.wireName = name ∧ pathKey inputs name = input.key) ∨
      (∀ input ∈ inputs, input.wireName ≠ name) ∧ pathKey inputs name = name := by
  cases found : inputs.find? fun input => input.wireName = name with
  | some input =>
      exact .inl ⟨input, List.mem_of_find?_eq_some found, by simpa using List.find?_some found,
        by rw [pathKey, found]⟩
  | none =>
      refine .inr ⟨fun input member => ?_, by rw [pathKey, found]⟩
      simpa using List.find?_eq_none.mp found input member

section Plan

variable {path verb : String} {inputs : OperationInputs} {seen : List String}

theorem pathKey_mem_arguments {name : String} :
    pathKey inputs.path name ∈ (requestPlan path verb inputs).arguments ↔
      name ∈ inputs.path.map Input.wireName ∨ name ∈ (requestPlan path verb inputs).arguments := by
  rcases pathKey_cases inputs.path name with ⟨input, member, named, key⟩ | ⟨absent, key⟩
  · have argument : input.key ∈ (requestPlan path verb inputs).arguments :=
      List.mem_map_of_mem (by simp [OperationInputs.all, member])
    rw [key]
    exact iff_of_true argument (.inl (List.mem_map.mpr ⟨input, member, named⟩))
  · have undeclared : name ∉ inputs.path.map Input.wireName := by
      rintro inside
      obtain ⟨input, member, same⟩ := List.mem_map.mp inside
      exact absent input member same
    rw [key, or_iff_right undeclared]

theorem interpolates_requestPlan (keyed : Keyed reservedInputKeys inputs.all seen) :
    Interpolates (requestPlan path verb inputs).arguments
        (templateLiteral (requestPlan path verb inputs).path) ↔
      (∀ name ∈ placeholders path, name ∈ inputs.path.map Input.wireName ∨
        name ∈ (requestPlan path verb inputs).arguments) ∧ ¬ Stray path := by
  have identifiers : ∀ name ∈ (requestPlan path verb inputs).arguments,
      Naming.isIdentifier name.toList = true := keyed.identifiers
  have closed : ∀ name, .hole name ∈ pathPieces path.toList →
      '\x7d' ∉ (pathKey inputs.path name).toList := by
    intro name hole
    rcases pathKey_cases inputs.path name with ⟨input, member, -, key⟩ | ⟨-, key⟩
    · have identifier := keyed.identifiers input.key
        (List.mem_map_of_mem (by simp [OperationInputs.all, member]))
      rw [key]
      exact fun inside =>
        absurd (Naming.isAlphanum_of_isIdentifier identifier _ inside) (by decide)
    · rw [key]
      exact closing_not_mem_hole hole
  have written : (requestPlan path verb inputs).path.toList.flatMap templateChar =
      templateOf (pathKey inputs.path) (pathPieces path.toList) := by
    rw [requestPlan, interpolate, String.toList_ofList, interpolateFrom_eq_flatMap]
    rfl
  rw [interpolates_iff_completes, written, completes_templateOf identifiers _ closed]
  simp only [mem_placeholders, pathKey_mem_arguments, Stray]

end Plan

/--
Every interpolation in the address of a request is an argument of the generated function exactly if
every name in braces in the path is the name of a path parameter, or an argument itself, and outside
of these names no brace follows a dollar sign.
-/
theorem interpolates_buildAction {path verb : String} {operation : Operation}
    {shared : List (Node Parameter)} {seen seen' : List String} {action : Action} {log log' : Log}
    (built : (buildAction path verb operation shared seen).run log = (.ok (action, seen'), log')) :
    ∃ merged, mergeParameters shared (operation.parameters.getD []) (operationLabel path verb) =
        .ok merged ∧
      (Interpolates action.request.arguments (templateLiteral action.request.path) ↔
        (∀ name ∈ placeholders path, (∃ p ∈ merged, p.name = name ∧ p.place = "path") ∨
          name ∈ action.request.arguments) ∧ ¬ Stray path) := by
  obtain ⟨key, groupTag, inputs, derived, rfl⟩ := buildAction_ok built
  obtain ⟨merged, combined, pathNames, -, _, keyed⟩ := operationInputs_ok derived
  have declared (name : String) : name ∈ inputs.path.map Input.wireName ↔
      ∃ p ∈ merged, p.name = name ∧ p.place = "path" := by
    rw [pathNames]
    simp [and_assoc, and_comm]
  refine ⟨merged, combined, ?_⟩
  show Interpolates (requestPlan path verb inputs).arguments
    (templateLiteral (requestPlan path verb inputs).path) ↔ _
  rw [interpolates_requestPlan keyed]
  simp only [declared]
  rfl

def itemOperation (names : List String) : Operation :=
  { operationId := .absent
    summary := .absent
    description := .absent
    tags := .absent
    parameters := some
      (names.map fun name => .inline ⟨name, "path", .absent, .absent, .absent, []⟩)
    requestBody := .absent
    extras := [] }

theorem interpolates_buildAction_item :
    ∃ action seen log,
      (buildAction "/items$/{item-id}" "get" (itemOperation ["item-id"]) [] []).run #[] =
          (.ok (action, seen), log) ∧
        Interpolates action.request.arguments (templateLiteral action.request.path) := by
  have succeeds : ((buildAction "/items$/{item-id}" "get"
      (itemOperation ["item-id"]) [] []).run #[]).1.isOk = true := by decide
  have names : placeholders "/items$/{item-id}" = ["item-id"] := by decide +kernel
  have unstrayed : ¬ Stray "/items$/{item-id}" := by
    rw [Stray]
    decide +kernel
  rcases ran : (buildAction "/items$/{item-id}" "get" (itemOperation ["item-id"]) [] []).run #[]
    with ⟨result, log⟩
  rw [ran] at succeeds
  match result with
  | .error problem => cases succeeds
  | .ok (action, seen) =>
      have parameters : mergeParameters [] ((itemOperation ["item-id"]).parameters.getD [])
          (operationLabel "/items$/{item-id}" "get") =
            .ok [⟨"item-id", "path", .absent, .absent, .absent, []⟩] := rfl
      obtain ⟨merged, combined, bound⟩ := interpolates_buildAction ran
      cases parameters.symm.trans combined
      exact ⟨action, seen, log, rfl, bound.mpr ⟨by simp [names], unstrayed⟩⟩

/-- A name in braces that nothing declares is left as an interpolation, of no argument. -/
theorem undeclared_name_unbound :
    ∃ action seen log,
      (buildAction "/items/{id}" "get" (itemOperation []) [] []).run #[] =
          (.ok (action, seen), log) ∧
        ¬ Interpolates action.request.arguments (templateLiteral action.request.path) := by
  have computed : ((buildAction "/items/{id}" "get" (itemOperation []) [] []).run #[]).1.toOption.map
      (fun built => (built.1.request.arguments,
        (readTemplate? (templateLiteral built.1.request.path)).map
          (List.contains · (.hole "id")))) = some ([], some true) := by decide
  rcases ran : (buildAction "/items/{id}" "get" (itemOperation []) [] []).run #[] with
    ⟨result, log⟩
  rw [ran] at computed
  match result with
  | .error problem => cases computed
  | .ok (action, seen) =>
      obtain ⟨none, hole⟩ := Prod.mk.inj (Option.some.inj computed)
      refine ⟨action, seen, log, rfl, ?_⟩
      rintro ⟨pieces, read, bound⟩
      simp only at none hole
      rw [read] at hole
      have member := bound "id" (List.contains_iff_mem.mp (Option.some.inj hole))
      rw [none] at member
      cases member

end ApiCompiler.Derivation
