import ApiCompiler.Proofs.Loading.Reordering
import ApiCompiler.Proofs.Tree.Parsed

/-!
What a loader and a run keep saves work, and changes nothing of what comes out.
-/

namespace ApiCompiler.Loading

open Openapi Relation

theorem dereferenceWithin_eq_ok {limit : Nat} {document : Value} {location : Option String}
    {work after : Work} {expansion : Expansion}
    (ran : (dereferenceWithin limit document location).run work = (.ok expansion, after)) :
    ∃ bench, (Expanding.document (surroundings work) limit document location).run
      { survey := { documents := work.loader.documents } } = (.ok expansion, bench) := by
  have result := dereferenceWithin_fst limit document location work
  rw [ran] at result
  exact ⟨_, Prod.ext result.symm rfl⟩

section Reorders

variable {location : String} {document document' : Value} {before before' work work' : Work}
  (hashless : Hashless location) (here : ∀ name ∈ work.world.disk.workingDirectory, Hashless name)
  (loaded : (loadRaw location).run before = (.ok document, work))
  (reorders : before.Reorders before')
  (loaded' : (loadRaw location).run before' = (.ok document', work'))
include hashless here loaded reorders loaded'

theorem Work.Reorders.plain : (work'.job document' (some location)).Plain := by
  refine Work.job_plain hashless loaded' ?_
  have same := (reorders.job loaded loaded').workingDirectory
  change work'.world.disk.workingDirectory = work.world.disk.workingDirectory at same
  rwa [same]

theorem Work.Reorders.sameTree {limit limit' : Nat} {expansion expansion' : Expansion}
    {after after' : Work}
    (ran : (dereferenceWithin limit document (some location)).run work = (.ok expansion, after))
    (ran' : (dereferenceWithin limit' document' (some location)).run work' =
      (.ok expansion', after')) : SameTree expansion expansion' := by
  obtain ⟨_, ran⟩ := dereferenceWithin_eq_ok ran
  obtain ⟨_, ran'⟩ := dereferenceWithin_eq_ok ran'
  exact (reorders.job loaded loaded').sameTree (Work.job_plain hashless loaded here)
    (reorders.plain hashless here loaded loaded') ran ran'

/-- If dereferencing succeeds in one of the orders it does so in the other, and gives the same tree. -/
theorem Work.Reorders.dereference_alike (finite : (work.job document (some location)).Finite) :
    (∃ value value', Reordered value value' ∧ ∃ least, ∀ limit ≥ least,
        (∃ after, (dereferenceWithin limit document (some location)).run work =
          (.ok (.ofValue value), after)) ∧
        ∃ after', (dereferenceWithin limit document' (some location)).run work' =
          (.ok (.ofValue value'), after')) ∨
      ∃ least, ∀ limit ≥ least, FailsToRead limit document (some location) work ∧
        FailsToRead limit document' (some location) work' := by
  have plain := Work.job_plain hashless loaded here
  have plain' := reorders.plain hashless here loaded loaded'
  have both := reorders.job loaded loaded'
  rcases Job.document_outcome plain finite with
    ⟨depth, expansion, found, least, ends⟩ | ⟨nothing, least, fails⟩ <;>
  rcases Job.document_outcome plain' (both.finite finite) with
    ⟨depth', expansion', found', least', ends'⟩ | ⟨nothing', least', fails'⟩
  · have ran := ends _ (Nat.le_max_left least least')
    have ran' := ends' _ (Nat.le_max_right least least')
    obtain ⟨value, value', rfl, rfl, same⟩ :=
      both.sameTree plain plain' (Prod.ext ran rfl) (Prod.ext ran' rfl)
    refine .inl ⟨value, value', same, max least least', fun limit enough => ⟨?_, ?_⟩⟩
    · exact dereferenceWithin_of_outcome (ends limit (Nat.le_trans (Nat.le_max_left ..) enough))
    · exact dereferenceWithin_of_outcome (ends' limit (Nat.le_trans (Nat.le_max_right ..) enough))
  · obtain ⟨other, given, -⟩ := both.document_mirrors depth expansion found
    rw [nothing'] at given
    cases given
  · obtain ⟨other, given, -⟩ := both.symm.document_mirrors depth' expansion' found'
    rw [nothing] at given
    cases given
  · refine .inr ⟨max least least', fun limit enough => ?_⟩
    obtain ⟨problem, ran, broken⟩ := fails limit (Nat.le_trans (Nat.le_max_left ..) enough)
    obtain ⟨problem', ran', broken'⟩ := fails' limit (Nat.le_trans (Nat.le_max_right ..) enough)
    obtain ⟨after, failed⟩ := dereferenceWithin_of_outcome ran
    obtain ⟨after', failed'⟩ := dereferenceWithin_of_outcome ran'
    exact ⟨⟨problem, after, failed, broken⟩, problem', after', failed', broken'⟩

end Reorders

theorem parse_of_reads {text : String} {value : Value}
    (yaml : (Yaml.read text).toOption = some value) (json : (Json.read text).toOption = some value)
    (isYaml : Bool) (source : String) : parse Yaml.read isYaml source text = .ok value := by
  cases isYaml with
  | true => rw [parse, if_pos rfl, eq_ok_of_toOption yaml]; rfl
  | false => rw [parse, if_neg Bool.false_ne_true, eq_ok_of_toOption json]

section Page

variable (disk : Disk) (refuses : FilePath → Option Errno)

theorem page_fetch (text location : String) :
    (pageWork disk refuses text).world.web.fetch false location =
      if "http://h/a" = Url.canonical location then .ok ⟨200, [], text⟩ else .error .refused := by
  have answer : (pageWork disk refuses text).world.web.answer? (Url.canonical location) =
      if "http://h/a" = Url.canonical location then some ⟨200, [], text⟩ else none := by
    rw [Web.answer?, pageWork, List.find?_cons]
    dsimp only
    rw [show Url.canonical "http://h/a" = "http://h/a" from rfl]
    split <;> simp_all
  rw [Web.fetch, if_neg Bool.false_ne_true, answer]
  split
  · rename_i absent
    split at absent
    · cases absent
    · rename_i other
      rw [if_neg other]
  · rename_i found present
    split at present
    · rename_i same
      cases present
      rw [if_pos same]
      rfl
    · cases present

/-- What is read at a location is the page, or has nothing to do with it. -/
theorem page_content (location : String) :
    (∃ isYaml, ∀ text, (surroundings (pageWork disk refuses text)).content location =
        parse Yaml.read isYaml location text) ∨
      ∃ result, ∀ text, (surroundings (pageWork disk refuses text)).content location = result := by
  have usual (text : String) :
      (pageWork disk refuses text).world.access = { presence := refuses } := rfl
  have stays (text : String) :
      (pageWork disk refuses text).loader.followsRedirections = false := rfl
  simp only [surroundings_content, content, webContent, usual, stays, page_fetch]
  split
  · split
    · exact .inl ⟨isYamlAnswer location ⟨200, [], ""⟩, fun _ => rfl⟩
    · exact .inr ⟨_, fun _ => rfl⟩
  · exact .inr ⟨fileContent (pageWork disk refuses "").world location, fun _ => rfl⟩

theorem page_reorders {text text' : String} {tree tree' : Value}
    (yaml : (Yaml.read text).toOption = some tree) (json : (Json.read text).toOption = some tree)
    (yaml' : (Yaml.read text').toOption = some tree')
    (json' : (Json.read text').toOption = some tree') (same : Reordered tree tree') :
    (pageWork disk refuses text).Reorders (pageWork disk refuses text') := by
  refine ⟨.nil _, .nil _, fun location => ?_, rfl, rfl⟩
  rcases page_content disk refuses location with ⟨isYaml, page⟩ | ⟨result, other⟩
  · rw [page, page, parse_of_reads yaml json, parse_of_reads yaml' json']
    exact .ok same
  · have here := other text
    rw [here, other]
    cases result with
    | error problem => exact .error problem
    | ok value =>
        rw [surroundings_content] at here
        exact .ok (content_reordered rfl here)

end Page

section Swapped

set_option maxRecDepth 10000

/-- An object with two members that are objects of one text, and the same with the members swapped. -/
theorem pair_reordered {first second : String × String} (different : first.1 ≠ second.1) :
    Reordered (pairTree first second) (pairTree second first) := by
  have lone (text : String) : Reordered (referenceTo text) (referenceTo text) :=
    .object (List.pairwise_singleton ..) (.cons (.scalar _) .nil) (.refl _)
  refine .object ?_ (.cons (lone _) (.cons (lone _) .nil)) (.swap ..)
  exact .cons (by simp [Scalar.sameName, Scalar.integer?, different]) (List.pairwise_singleton ..)

theorem marked_reorders :
    (markedWork nearLink farLink).Reorders (markedWork farLink nearLink) := by
  have same : Reordered (pairTree nearLink farLink) (pairTree farLink nearLink) :=
    pair_reordered (by decide)
  exact page_reorders _ _ (by decide +kernel) (by decide +kernel) (by decide +kernel)
    (by decide +kernel) same

theorem barred_reorders : (barredWork barredB barredC).Reorders (barredWork barredC barredB) := by
  have same : Reordered (pairTree barredB barredC) (pairTree barredC barredB) :=
    pair_reordered (by decide)
  exact page_reorders _ _ (by decide +kernel) (by decide +kernel) (by decide +kernel)
    (by decide +kernel) same

end Swapped

/-- Two pages that hold one document, with the members of its objects in different orders. -/
def forwardText : String :=
  "\x7b\"entry\": \x7b\"$ref\": \"#/leaf\", \"title\": \"own\"\x7d, \"leaf\": \x7b\"type\": \"string\"\x7d\x7d"

def backwardText : String :=
  "\x7b\"leaf\": \x7b\"type\": \"string\"\x7d, \"entry\": \x7b\"title\": \"own\", \"$ref\": \"#/leaf\"\x7d\x7d"

def forwardTree : Value :=
  .object [(.text "entry", .object [(.text "$ref", .text "#/leaf"), (.text "title", .text "own")]),
    (.text "leaf", .object [(.text "type", .text "string")])]

def backwardTree : Value :=
  .object [(.text "leaf", .object [(.text "type", .text "string")]),
    (.text "entry", .object [(.text "title", .text "own"), (.text "$ref", .text "#/leaf")])]

abbrev orderedWork (text : String) : Work :=
  pageWork {} (fun _ => none) text

abbrev orderedLoaded (text : String) (tree : Value) : Work :=
  pageLoaded {} (fun _ => none) text tree

theorem backward_reorders : (orderedWork forwardText).Reorders (orderedWork backwardText) := by
  have same : Reordered forwardTree backwardTree := .object ?_ (.cons ?_ (.cons ?_ .nil)) (.swap ..)
  · exact page_reorders _ _ (by decide +kernel) (by decide +kernel) (by decide +kernel)
      (by decide +kernel) same
  · exact .cons (by simp [Scalar.sameName, Scalar.integer?]) (List.pairwise_singleton ..)
  · refine .object ?_ (.cons (.scalar _) (.cons (.scalar _) .nil)) (.swap ..)
    exact .cons (by simp [Scalar.sameName, Scalar.integer?]) (List.pairwise_singleton ..)
  · exact .object (List.pairwise_singleton ..) (.cons (.scalar _) .nil) (.refl _)

def leafTarget : Target :=
  ⟨.object [(.text "type", .text "string")], forwardTree, some "http://h/a"⟩

def leafSurvey : Survey :=
  { documents := [("http://h/a", forwardTree)]
    targets := [("http://h/a#/leaf", leafTarget)]
    edges := [("http://h/a#/leaf", [])] }

theorem references_forward : referencesOf forwardTree = ["#/leaf"] := by
  decide +kernel

theorem page_own : ∀ reference ∈ referencesOf forwardTree,
    addressOf (surroundings (orderedLoaded forwardText forwardTree)) (some "http://h/a")
      (splitReference reference).1 = .own := by
  intro reference written
  have only : reference ∈ ["#/leaf"] := references_forward ▸ written
  rw [List.mem_singleton.mp only]
  rfl

end ApiCompiler.Loading
