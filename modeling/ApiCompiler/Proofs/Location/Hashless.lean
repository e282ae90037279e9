import ApiCompiler.Loading.Survey
import ApiCompiler.Proofs.Text.Segments
import ApiCompiler.Proofs.Text.Words
import ApiCompiler.Proofs.World.Failing

/-!
Locations without a hash sign. All that such a location and an address without one lead to is again
without one, so that the hash sign of a target's key tells where the location ends.
-/

namespace ApiCompiler

/-- No part of the text could be taken for the beginning of a pointer. -/
def Hashless (text : String) : Prop :=
  '#' ∉ text.toList

namespace Url

theorem clean_subset (text : List Char) : clean text ⊆ text :=
  List.Subset.trans List.filter_sublist.subset (List.dropWhile_sublist _).subset

theorem hash_not_mem_toLower {text : List Char} (absent : '#' ∉ text) :
    '#' ∉ text.map Char.toLower := by
  intro inside
  obtain ⟨c, member, same⟩ := List.mem_map.mp inside
  rcases Text.toLower_cases c with ⟨-, lower⟩ | ⟨-, kept⟩
  · rw [same] at lower
    exact absurd lower (by decide)
  · rw [kept] at same
    exact absent (same ▸ member)

theorem splitScheme_hashless {text scheme rest : List Char} (absent : '#' ∉ text)
    (split : splitScheme text = some (scheme, rest)) : '#' ∉ scheme ∧ '#' ∉ rest := by
  have start := Text.cut_fst_subset ':' text
  have ending := Text.cut_snd_subset ':' text
  rw [splitScheme] at split
  split at split
  · rename_i c name after parted
    rw [parted] at start ending
    split at split
    · cases split
      exact ⟨hash_not_mem_toLower fun inside => absent (start inside),
        fun inside => absent (ending inside)⟩
    · cases split
  · cases split

theorem splitAuthority_hashless {text : List Char} (absent : '#' ∉ text) :
    '#' ∉ (splitAuthority text).1 ∧ '#' ∉ (splitAuthority text).2 := by
  rw [splitAuthority.eq_def]
  split
  · rename_i rest
    rw [List.mem_cons, List.mem_cons, not_or, not_or] at absent
    rw [List.span_eq_takeWhile_dropWhile]
    exact ⟨fun inside => absent.2.2 ((List.takeWhile_sublist _).subset inside),
      fun inside => absent.2.2 ((List.dropWhile_sublist _).subset inside)⟩
  · exact ⟨List.not_mem_nil, absent⟩

theorem splitParams_hashless {path : List Char} (absent : '#' ∉ path) :
    '#' ∉ (splitParams path).1 ∧ '#' ∉ (splitParams path).2 := by
  have last : (path.reverse.takeWhile (· ≠ '/')).reverse ⊆ path := fun c inside =>
    List.mem_reverse.mp ((List.takeWhile_sublist _).subset (List.mem_reverse.mp inside))
  have before : (path.reverse.dropWhile (· ≠ '/')).reverse ⊆ path := fun c inside =>
    List.mem_reverse.mp ((List.dropWhile_sublist _).subset (List.mem_reverse.mp inside))
  have start := Text.cut_fst_subset ';' (path.reverse.takeWhile (· ≠ '/')).reverse
  have ending := Text.cut_snd_subset ';' (path.reverse.takeWhile (· ≠ '/')).reverse
  rw [splitParams]
  split
  · rename_i name params parted
    rw [parted] at start ending
    refine ⟨?_, fun inside => absent (last (ending inside))⟩
    rw [List.mem_append, not_or]
    exact ⟨fun inside => absent (before inside), fun inside => absent (last (start inside))⟩
  · exact ⟨absent, List.not_mem_nil⟩

/-- No part holds a hash sign, and there is no fragment. -/
structure Bare (url : Url) : Prop where
  scheme : '#' ∉ url.scheme
  authority : '#' ∉ url.authority
  path : '#' ∉ url.path
  params : '#' ∉ url.params
  query : '#' ∉ url.query
  fragment : url.fragment = []

theorem parse_bare {text : String} {scheme : List Char} {url : Url} (hashless : Hashless text)
    (given : '#' ∉ scheme) (parsed : parse text scheme = .ok url) : url.Bare := by
  have absent : '#' ∉ clean text.toList := fun inside => hashless (clean_subset _ inside)
  have split : '#' ∉ ((splitScheme (clean text.toList)).getD (scheme, clean text.toList)).1 ∧
      '#' ∉ ((splitScheme (clean text.toList)).getD (scheme, clean text.toList)).2 := by
    cases parted : splitScheme (clean text.toList) with
    | none => exact ⟨given, absent⟩
    | some parts => exact splitScheme_hashless absent parted
  rw [parse] at parsed
  dsimp only at parsed
  generalize (splitScheme (clean text.toList)).getD (scheme, clean text.toList) = parts at *
  obtain ⟨_, -, parsed⟩ := bind_eq_ok.mp parsed
  have divide := splitAuthority_hashless split.2
  rw [Text.cut_of_not_mem divide.2] at parsed
  have path : '#' ∉ (Text.cut '?' (splitAuthority parts.2).2).1 := fun member =>
    divide.2 (Text.cut_fst_subset '?' _ member)
  have parted := splitParams_hashless path
  cases parsed
  exact ⟨split.1, divide.1, parted.1, parted.2,
    fun member => divide.2 (Text.cut_snd_subset '?' _ member), rfl⟩

theorem text_hashless {url : Url} (bare : url.Bare) : Hashless url.text := by
  have path : '#' ∉ (if url.params.isEmpty then url.path else url.path ++ ';' :: url.params) := by
    split
    · exact bare.path
    · simp [bare.path, bare.params]
  rw [Hashless, text]
  generalize (if url.params.isEmpty then url.path else url.path ++ ';' :: url.params) = path' at *
  have rooted : '#' ∉ (if path'.isEmpty || path'.head? = some '/' then path' else '/' :: path') := by
    split
    · exact path
    · simp [path]
  have query : '#' ∉ (if url.query.isEmpty then [] else '?' :: url.query) := by
    split
    · exact List.not_mem_nil
    · simp [bare.query]
  rw [String.toList_ofList, bare.fragment]
  simp only [List.mem_append, List.mem_cons, not_or]
  exact ⟨⟨⟨⟨bare.scheme, by decide, by decide, by decide, bare.authority⟩, rooted⟩, query⟩,
    List.not_mem_nil⟩

theorem walk_hashless {segments done : List (List Char)} (before : ∀ part ∈ done, '#' ∉ part)
    (after : ∀ part ∈ segments, '#' ∉ part) : ∀ part ∈ segments.foldl walk done, '#' ∉ part := by
  induction segments generalizing done with
  | nil => exact before
  | cons segment segments ih =>
      rw [List.forall_mem_cons] at after
      refine ih ?_ after.2
      rw [walk]
      split
      · exact fun part inside => before part (List.dropLast_subset _ inside)
      · split
        · exact before
        · simpa [or_imp, forall_and] using ⟨before, after.1⟩

theorem dropEmptyInside_subset (segments : List (List Char)) :
    dropEmptyInside segments ⊆ segments := by
  have later : segments.drop 1 ⊆ segments := (List.drop_sublist ..).subset
  intro part inside
  rw [dropEmptyInside, List.mem_append, List.mem_append, List.mem_filter, Option.mem_toList] at inside
  rcases inside with (first | ⟨middle, -⟩) | last
  · exact (List.take_sublist ..).subset first
  · exact later (List.dropLast_subset _ middle)
  · exact later (List.mem_of_getLast? last)

theorem joinPath_hashless {base path : List Char} (start : '#' ∉ base) (ending : '#' ∉ path) :
    '#' ∉ joinPath base path := by
  have pieces {text : List Char} (absent : '#' ∉ text) : ∀ part ∈ Text.splitAt '/' text, '#' ∉ part :=
    fun part inside member => absent (Text.subset_of_mem_splitAt inside member)
  have folder : ∀ part ∈ (if (Text.splitAt '/' base).getLast? = some [] then Text.splitAt '/' base
      else (Text.splitAt '/' base).dropLast), '#' ∉ part := by
    split
    · exact pieces start
    · exact fun part inside => pieces start part (List.dropLast_subset _ inside)
  rw [joinPath]
  generalize (if (Text.splitAt '/' base).getLast? = some [] then Text.splitAt '/' base
      else (Text.splitAt '/' base).dropLast) = before at *
  have given : ∀ part ∈ (if path.head? = some '/' then Text.splitAt '/' path
      else dropEmptyInside (before ++ Text.splitAt '/' path)), '#' ∉ part := by
    split
    · exact pieces ending
    · intro part inside
      rcases List.mem_append.mp (dropEmptyInside_subset _ inside) with old | new
      · exact folder part old
      · exact pieces ending part new
  generalize (if path.head? = some '/' then Text.splitAt '/' path
      else dropEmptyInside (before ++ Text.splitAt '/' path)) = segments at *
  have resolved : ∀ part ∈ segments.foldl walk [], '#' ∉ part :=
    walk_hashless (fun _ inside => absurd inside List.not_mem_nil) given
  have joined : '#' ∉ Text.joinWith ['/'] (if segments.getLast? = some ['.'] ||
      segments.getLast? = some ['.', '.'] then segments.foldl walk [] ++ [[]]
      else segments.foldl walk []) := by
    refine Text.not_mem_joinWith (by decide) ?_
    split
    · simpa [or_imp, forall_and] using resolved
    · exact resolved
  generalize Text.joinWith ['/'] (if segments.getLast? = some ['.'] ||
      segments.getLast? = some ['.', '.'] then segments.foldl walk [] ++ [[]]
      else segments.foldl walk []) = path' at *
  split
  · decide
  · exact joined

theorem join_hashless {base relative joined : String} (start : Hashless base)
    (ending : Hashless relative) (found : join base relative = .ok joined) : Hashless joined := by
  rw [join] at found
  split at found
  · cases found
    exact start
  · obtain ⟨page, parsed, found⟩ := bind_eq_ok.mp found
    obtain ⟨url, parsed', found⟩ := bind_eq_ok.mp found
    have here := parse_bare start List.not_mem_nil parsed
    have there := parse_bare ending here.scheme parsed'
    dsimp only at found
    split at found
    · cases found
      exact ending
    · split at found
      · cases found
        exact text_hashless there
      · split at found
        · cases found
          refine text_hashless ⟨there.scheme, here.authority, here.path, here.params, ?_, there.fragment⟩
          dsimp only
          split
          · exact here.query
          · exact there.query
        · cases found
          exact text_hashless ⟨there.scheme, here.authority, joinPath_hashless here.path there.path,
            there.params, there.query, there.fragment⟩

end Url

namespace FilePath

theorem ofText_hashless {text : String} (hashless : Hashless text) :
    ∀ segment ∈ (ofText text).segments, Hashless segment := by
  intro segment inside
  obtain ⟨part, member, rfl⟩ := List.mem_map.mp inside
  rw [Hashless, String.toList_ofList]
  exact fun hash => hashless (Text.subset_of_mem_splitAt (List.mem_filter.mp member).1 hash)

theorem resolveFrom_hashless {workingDirectory : List String} {path : FilePath}
    (start : ∀ name ∈ workingDirectory, Hashless name)
    (rest : ∀ segment ∈ path.segments, Hashless segment) :
    ∀ segment ∈ resolveFrom workingDirectory path, Hashless segment := by
  have climbed : ∀ segments : List String, (∀ segment ∈ segments, Hashless segment) →
      ∀ done : List String, (∀ name ∈ done, Hashless name) →
        ∀ segment ∈ segments.foldl climb done, Hashless segment := by
    intro segments
    induction segments with
    | nil => exact fun _ _ before => before
    | cons segment segments ih =>
        intro after done before
        rw [List.forall_mem_cons] at after
        refine ih after.2 _ ?_
        rw [climb]
        split
        · exact fun name inside => before name (List.dropLast_subset _ inside)
        · simpa [or_imp, forall_and] using ⟨before, after.1⟩
  refine climbed _ rest _ ?_
  split
  · exact fun _ inside => absurd inside List.not_mem_nil
  · exact start

theorem text_absolute_hashless {segments : List String}
    (hashless : ∀ segment ∈ segments, Hashless segment) : Hashless (absolute segments).text := by
  have joined : '#' ∉ (String.intercalate "/" segments).toList := by
    induction segments with
    | nil => simp
    | cons segment segments ih =>
        rw [List.forall_mem_cons] at hashless
        cases segments with
        | nil => simpa [Hashless] using hashless.1
        | cons next segments =>
            rw [String.intercalate_cons_cons]
            rw [String.toList_append, String.toList_append, List.mem_append, List.mem_append,
              not_or, not_or]
            exact ⟨⟨hashless.1, by decide⟩, ih hashless.2⟩
  rw [Hashless, text]
  simpa [absolute] using joined

end FilePath

namespace Loading

theorem splitReference_hashless (reference : String) : Hashless (splitReference reference).1 := by
  rw [Hashless, splitReference, String.toList_ofList]
  exact Text.separator_not_mem_cut '#' reference.toList

theorem resolved_hashless {workingDirectory : Place} {path : FilePath} {location : String}
    (here : ∀ name ∈ workingDirectory, Hashless name) (there : ∀ name ∈ path.segments, Hashless name)
    (found : resolved workingDirectory path = .ok location) : Hashless location := by
  rw [resolved] at found
  split at found
  · cases found
  · cases found
    exact FilePath.text_absolute_hashless (FilePath.resolveFrom_hashless here there)

theorem joinLocation_hashless {workingDirectory : Place} {base : Option String}
    {address location : String} (here : ∀ name ∈ workingDirectory, Hashless name)
    (start : ∀ text, base = some text → Hashless text) (ending : Hashless address)
    (joined : joinLocation workingDirectory base address = .ok location) : Hashless location := by
  have start' : ∀ text, base.filter (fun text => !text.isEmpty) = some text → Hashless text :=
    fun text found => start text (Option.filter_eq_some_iff.mp found).1
  rw [joinLocation] at joined
  dsimp only at joined
  generalize base.filter (fun text => !text.isEmpty) = base at *
  split at joined
  · cases joined
    exact ending
  · split at joined
    · rename_i url web
      exact Url.join_hashless (start' url (Option.filter_eq_some_iff.mp web).1) ending joined
    · refine resolved_hashless here ?_ joined
      have there := FilePath.ofText_hashless ending
      rw [FilePath.join]
      split
      · exact there
      · refine List.forall_mem_append.mpr ⟨?_, there⟩
        cases base with
        | none => exact fun _ inside => absurd inside List.not_mem_nil
        | some text =>
            exact fun segment inside => FilePath.ofText_hashless (start' text rfl) segment
              (List.dropLast_subset _ inside)

end Loading

end ApiCompiler
