import ApiCompiler.Openapi.Document
import ApiCompiler.Proofs.Text.Segments
import ApiCompiler.Proofs.Text.Template

/-!
Addresses of servers. The defaults of the variables are put in one variable after the other, over the
whole address each time. Where braces only stand around names, this is the same as putting all of them
in at once, and the order of the variables does not matter.
-/

namespace ApiCompiler.Openapi.Server

open Text (Template replace replace_nil replace_append replace_cons append_separator_inj)

def IsBraceless (text : List Char) : Prop :=
  '\x7b' ∉ text ∧ '\x7d' ∉ text

instance : DecidablePred IsBraceless := fun text =>
  inferInstanceAs (Decidable ('\x7b' ∉ text ∧ '\x7d' ∉ text))

/-- The braces of a text are pairs one after the other, each closed before the next is opened. -/
def HasFlatBraces (text : List Char) : Prop :=
  ∃ count, text.filter (fun c => c = '\x7b' || c = '\x7d') =
    (List.replicate count ['\x7b', '\x7d']).flatten

/-- A template in which braces stand around the names only. -/
structure IsFlat (template : Template) : Prop where
  plains : ∀ plain ∈ template.plains, IsBraceless plain
  names : ∀ name ∈ template.names, IsBraceless name.toList

/-- What a name in braces stands for: the variable's default, or itself if there is no such variable. -/
def valueIn (parameters : List (String × ServerVariable)) (name : String) : List Char :=
  match parameters.lookup name with
  | some v => v.default.toList
  | none => placeholder name

theorem isBraceless_of_filter {text : List Char}
    (none : ∀ c ∈ text, ¬ (c = '\x7b' || c = '\x7d') = true) : IsBraceless text := by
  constructor
  · exact fun opens => none _ opens rfl
  · exact fun closes => none _ closes rfl

theorem exists_isFlat {text : List Char} (flat : HasFlatBraces text) :
    ∃ template, IsFlat template ∧ template.fill placeholder = text := by
  obtain ⟨count, braces⟩ := flat
  induction count generalizing text with
  | zero =>
      have bare := isBraceless_of_filter (List.filter_eq_nil_iff.mp braces)
      exact ⟨⟨[], text⟩, ⟨by simpa using bare, by simp⟩, rfl⟩
  | succ count ih =>
      rw [List.replicate_succ, List.flatten_cons, List.cons_append] at braces
      obtain ⟨plain, behind, rfl, before, -, braces⟩ := List.filter_eq_cons_iff.mp braces
      rw [List.cons_append, List.nil_append] at braces
      obtain ⟨name, rest, rfl, within, -, braces⟩ := List.filter_eq_cons_iff.mp braces
      obtain ⟨⟨leading, last⟩, shape, rfl⟩ := ih braces
      refine ⟨⟨(plain, String.ofList name) :: leading, last⟩, ⟨?_, ?_⟩, ?_⟩
      · exact List.forall_mem_cons.mpr ⟨isBraceless_of_filter before, shape.plains⟩
      · refine List.forall_mem_cons.mpr ⟨?_, shape.names⟩
        rw [String.toList_ofList]
        exact isBraceless_of_filter within
      · simp [placeholder]

/-! One variable. -/

theorem placeholder_ne_nil (name : String) : placeholder name ≠ [] := by
  simp [placeholder]

theorem replace_plain {plain : List Char} (bare : '\x7b' ∉ plain) (name : String)
    (value rest : List Char) :
    replace (placeholder name) value (plain ++ rest) =
      plain ++ replace (placeholder name) value rest := by
  induction plain with
  | nil => rfl
  | cons c plain ih =>
      rw [List.mem_cons, not_or] at bare
      have other : ¬ placeholder name <+: c :: (plain ++ rest) := fun starts =>
        bare.1 (List.cons_prefix_cons.mp starts).1
      rw [List.cons_append, replace_cons value (placeholder_ne_nil name) other, ih bare.2,
        List.cons_append]

theorem replace_placeholder_of_ne {name other : String} (bare : IsBraceless name.toList)
    (otherBare : IsBraceless other.toList) (different : name ≠ other) (value rest : List Char) :
    replace (placeholder name) value (placeholder other ++ rest) =
      placeholder other ++ replace (placeholder name) value rest := by
  have letters : placeholder other ++ rest = '\x7b' :: ((other.toList ++ ['\x7d']) ++ rest) := by
    simp [placeholder]
  have apart : ¬ placeholder name <+: '\x7b' :: ((other.toList ++ ['\x7d']) ++ rest) := by
    rintro ⟨more, same⟩
    have behind : name.toList ++ '\x7d' :: more = other.toList ++ '\x7d' :: rest := by
      simpa [placeholder] using same
    obtain ⟨names, -⟩ := append_separator_inj bare.2 otherBare.2 behind
    exact different (String.toList_inj.mp names)
  have behind : '\x7b' ∉ other.toList ++ ['\x7d'] := by simp [otherBare.1]
  rw [letters, replace_cons value (placeholder_ne_nil name) apart, replace_plain behind]
  simp [placeholder]

/-! All variables. -/

theorem valueIn_concat_of_some {parameters : List (String × ServerVariable)} {other : String}
    {w : ServerVariable} (known : parameters.lookup other = some w) (name : String)
    (v : ServerVariable) :
    valueIn (parameters ++ [(name, v)]) other = valueIn parameters other := by
  simp [valueIn, List.lookup_append, known]

theorem valueIn_concat_of_none {parameters : List (String × ServerVariable)} {other : String}
    (unknown : parameters.lookup other = none) (name : String) (v : ServerVariable) :
    valueIn (parameters ++ [(name, v)]) other =
      if other = name then v.default.toList else placeholder other := by
  by_cases same : other = name
  · subst same
    simp [valueIn, List.lookup_append, unknown]
  · simp [valueIn, List.lookup_append, unknown, same, List.lookup_cons, beq_false_of_ne same]

theorem mem_of_lookup {parameters : List (String × ServerVariable)} {name : String}
    {v : ServerVariable} (known : parameters.lookup name = some v) : (name, v) ∈ parameters := by
  obtain ⟨front, back, rfl, -⟩ := List.lookup_eq_some_iff.mp known
  simp

/-- One variable more: its place is taken unless an earlier variable of its name has taken it. -/
theorem replace_fill {template : Template} (flat : IsFlat template)
    {done : List (String × ServerVariable)}
    (written : ∀ p ∈ done, IsBraceless p.2.default.toList) {name : String}
    (bare : IsBraceless name.toList) (v : ServerVariable) :
    replace (placeholder name) v.default.toList (template.fill (valueIn done)) =
      template.fill (valueIn (done ++ [(name, v)])) := by
  obtain ⟨leading, last⟩ := template
  induction leading with
  | nil =>
      have plain := (flat.plains last (by simp)).1
      have whole := replace_plain plain name v.default.toList []
      rwa [replace_nil, List.append_nil] at whole
  | cons part leading ih =>
      obtain ⟨plain, other⟩ := part
      obtain ⟨plainBare, plains⟩ := List.forall_mem_cons.mp flat.plains
      obtain ⟨otherBare, names⟩ := List.forall_mem_cons.mp flat.names
      have later := ih ⟨plains, names⟩
      rw [Template.fill_cons, Template.fill_cons, replace_plain plainBare.1]
      cases known : done.lookup other with
      | some w =>
          have value : IsBraceless (valueIn done other) := by
            simpa [valueIn, known] using written _ (mem_of_lookup known)
          rw [replace_plain value.1, later, valueIn_concat_of_some known]
      | none =>
          have vacant : valueIn done other = placeholder other := by simp [valueIn, known]
          rw [vacant, valueIn_concat_of_none known]
          by_cases same : other = name
          · rw [if_pos same, same, replace_append _ (placeholder_ne_nil name), later]
          · rw [if_neg same, replace_placeholder_of_ne bare otherBare (Ne.symm same), later]

theorem foldl_replace_fill {template : Template} (flat : IsFlat template)
    (done parameters : List (String × ServerVariable))
    (bare : ∀ p ∈ done ++ parameters, IsBraceless p.1.toList ∧ IsBraceless p.2.default.toList) :
    parameters.foldl (fun url (name, v) => replace (placeholder name) v.default.toList url)
        (template.fill (valueIn done)) =
      template.fill (valueIn (done ++ parameters)) := by
  induction parameters generalizing done with
  | nil => rw [List.foldl_nil, List.append_nil]
  | cons first parameters ih =>
      obtain ⟨name, v⟩ := first
      have written : ∀ p ∈ done, IsBraceless p.2.default.toList := fun p member =>
        (bare p (List.mem_append_left _ member)).2
      have named : IsBraceless name.toList := (bare (name, v) (by simp)).1
      have regrouped : done ++ (name, v) :: parameters = (done ++ [(name, v)]) ++ parameters := by
        simp
      rw [regrouped] at bare ⊢
      rw [List.foldl_cons]
      dsimp only
      rw [replace_fill flat written named, ih _ bare]

theorem resolvedUrl_eq_fill (server : Server) {template : Template} (flat : IsFlat template)
    (filled : template.fill placeholder = server.url.toList)
    (bare : ∀ p ∈ server.parameters.getD [],
      IsBraceless p.1.toList ∧ IsBraceless p.2.default.toList) :
    server.resolvedUrl.toList = template.fill (valueIn (server.parameters.getD [])) := by
  have start : template.fill (valueIn []) = template.fill placeholder := rfl
  have whole := foldl_replace_fill flat [] (server.parameters.getD []) bare
  rw [resolvedUrl, String.toList_ofList, ← filled, ← start, whole, List.nil_append]

/-! The order of the variables. -/

theorem lookup_perm {parameters reordered : List (String × ServerVariable)}
    (moved : reordered.Perm parameters) (distinct : (reordered.map Prod.fst).Nodup)
    (name : String) : reordered.lookup name = parameters.lookup name := by
  induction moved with
  | nil => rfl
  | cons first moved ih =>
      rw [List.lookup_cons, List.lookup_cons, ih (List.nodup_cons.mp distinct).2]
  | swap first second rest =>
      have apart : second.1 ≠ first.1 := fun same =>
        (List.nodup_cons.mp distinct).1 (by simp [same])
      rw [List.lookup_cons, List.lookup_cons, List.lookup_cons, List.lookup_cons]
      by_cases here : name = second.1
      · subst here
        simp [beq_false_of_ne apart]
      · simp [beq_false_of_ne here]
  | trans moved moved' ih ih' =>
      rw [ih distinct, ih' ((moved.map Prod.fst).nodup_iff.mp distinct)]

theorem valueIn_perm {parameters reordered : List (String × ServerVariable)}
    (moved : reordered.Perm parameters) (distinct : (reordered.map Prod.fst).Nodup) :
    valueIn reordered = valueIn parameters := by
  funext name
  rw [valueIn, valueIn, lookup_perm moved distinct]

/--
In an address whose braces do not nest, the defaults of the variables are put in at once: the address
is a template of names in braces, and every name of a variable is replaced by the variable's default and
every other one kept, whatever the order of the variables, as long as the names and the defaults hold
no brace.
-/
theorem resolvedUrl_at_once {server : Server}
    (bare : ∀ p ∈ server.parameters.getD [],
      IsBraceless p.1.toList ∧ IsBraceless p.2.default.toList)
    (flat : HasFlatBraces server.url.toList) :
    (∃ template, IsFlat template ∧ template.fill placeholder = server.url.toList) ∧
    (∀ template, IsFlat template → template.fill placeholder = server.url.toList →
      server.resolvedUrl.toList = template.fill (valueIn (server.parameters.getD []))) ∧
    ∀ reordered, ((server.parameters.getD []).map Prod.fst).Nodup →
      reordered.Perm (server.parameters.getD []) →
        { server with parameters := some reordered }.resolvedUrl = server.resolvedUrl := by
  obtain ⟨template, shape, filled⟩ := exists_isFlat flat
  refine ⟨⟨template, shape, filled⟩, fun other otherShape otherFilled =>
    resolvedUrl_eq_fill server otherShape otherFilled bare, fun reordered distinct moved => ?_⟩
  have resolved := resolvedUrl_eq_fill server shape filled bare
  have kept := resolvedUrl_eq_fill { server with parameters := some reordered } shape filled
    fun p member => bare p (moved.subset member)
  rw [Option.getD_some,
    valueIn_perm moved ((moved.map Prod.fst).nodup_iff.mpr distinct)] at kept
  rw [← String.toList_inj, kept, resolved]

def plainVariable (default : String) : ServerVariable :=
  { default, choices := .absent, description := .absent, extras := [] }

/-- A server whose address holds one variable twice, and a name that is none of its variables. -/
def regionServer : Server :=
  { url := "https://\x7bregion\x7d.\x7bhost\x7d/\x7bregion\x7d/\x7bversion\x7d"
    description := .absent
    parameters := some [("region", plainVariable "eu"), ("host", plainVariable "region.test")]
    extras := [] }

theorem resolvedUrl_at_once_regions :
    (∀ p ∈ regionServer.parameters.getD [],
      IsBraceless p.1.toList ∧ IsBraceless p.2.default.toList) ∧
    HasFlatBraces regionServer.url.toList ∧
    ∃ template, IsFlat template ∧ template.fill placeholder = regionServer.url.toList ∧
      template.fill (valueIn (regionServer.parameters.getD [])) =
        "https://eu.region.test/eu/\x7bversion\x7d".toList ∧
      { regionServer with
        parameters := some (regionServer.parameters.getD []).reverse }.resolvedUrl =
        "https://eu.region.test/eu/\x7bversion\x7d" := by
  have bare : ∀ p ∈ regionServer.parameters.getD [],
      IsBraceless p.1.toList ∧ IsBraceless p.2.default.toList := by decide
  have flat : HasFlatBraces regionServer.url.toList := ⟨4, by decide⟩
  have shown : regionServer.resolvedUrl = "https://eu.region.test/eu/\x7bversion\x7d" := by decide
  obtain ⟨⟨template, shape, filled⟩, resolved, moved⟩ := resolvedUrl_at_once bare flat
  refine ⟨bare, flat, template, shape, filled, ?_, ?_⟩
  · rw [← resolved template shape filled, shown]
  · rw [← shown]
    exact moved _ (by decide) (List.reverse_perm _)

end ApiCompiler.Openapi.Server
