import ApiCompiler.Proofs.Loading.Follow
import ApiCompiler.Proofs.Loading.Survey
import ApiCompiler.Proofs.Location.Hashless
import ApiCompiler.Proofs.Tree.Parsed

/-!
Where no location has a hash sign, a key tells the target that is filed under it.
-/

namespace ApiCompiler.Loading

theorem targetKey_inj {first second pointer pointer' : String} (one : Hashless first)
    (other : Hashless second)
    (same : targetKey (some first) pointer = targetKey (some second) pointer') :
    first = second ∧ pointer = pointer' := by
  have texts := congrArg String.toList same
  have hash : ("#" : String).toList = ['#'] := rfl
  simp only [targetKey, Option.getD_some, String.toList_append, hash, List.append_assoc,
    List.singleton_append] at texts
  have cut := congrArg (Text.cut '#') texts
  rw [Text.cut_append one, Text.cut_append other, Prod.mk.injEq, Option.some.injEq] at cut
  exact ⟨String.toList_inj.mp cut.1, String.toList_inj.mp cut.2⟩

namespace Job

variable {job : Job} {survey : Survey} {home target : Target} {reference key : String}

/-- The document was read from the location it has. -/
def Located (job : Job) (root : Value) (location : Option String) : Prop :=
  ∃ place, location = some place ∧ Hashless place ∧ job.document? place = some root

/--
The document was read, and there is no hash sign in its location, nor in the directory that
locations start from which are relative for want of a web address.
-/
structure Plain (job : Job) : Prop where
  located : job.Located job.document job.location
  workingDirectory : ∀ name ∈ job.around.workingDirectory, Hashless name

theorem place?_located (plain : job.Plain) (here : job.Located home.root home.location)
    {place : Value × Option String × String} (found : job.place? home reference = some place) :
    job.Located place.1 place.2.1 := by
  obtain ⟨location, written, hashless, read⟩ := here
  cases address : addressOf job.around home.location (splitReference reference).1 with
  | own =>
      rw [place?_of_own address] at found
      cases found
      exact ⟨location, written, hashless, read⟩
  | other other =>
      rw [place?_of_other address] at found
      obtain ⟨root, there, rfl⟩ := Option.map_eq_some_iff.mp found
      refine ⟨other, rfl, ?_, there⟩
      rw [addressOf] at address
      split at address
      · cases address
      · split at address
        · cases address
        · split at address
          · rename_i joined
            cases address
            refine joinLocation_hashless plain.workingDirectory (fun text same => ?_)
              (splitReference_hashless reference) joined
            rw [written] at same
            cases same
            exact hashless
          · cases address
  | disabled => rw [place?, address] at found; cases found
  | faulty fault => rw [place?, address] at found; cases found

theorem Met.located (met : job.Met target) (plain : job.Plain) :
    job.Located target.root target.location := by
  induction met with
  | refl => exact plain.located
  | tail _ refers here =>
      obtain ⟨reference, -, leads⟩ := refers
      obtain ⟨place, found, leads⟩ := Option.bind_eq_some_iff.mp leads
      obtain ⟨value, -, rfl⟩ := Option.map_eq_some_iff.mp leads
      exact place?_located plain here found

/-- References filed under one key lead to the same. -/
theorem Plain.target?_eq (plain : job.Plain) {first second : Target} (one : job.Met first)
    (two : job.Met second) {reference' : String} (filed : job.key? first reference = some key)
    (filed' : job.key? second reference' = some key) :
    job.target? first reference = job.target? second reference' := by
  obtain ⟨⟨root, location, pointer⟩, found, same⟩ := Option.map_eq_some_iff.mp filed
  obtain ⟨⟨root', location', pointer'⟩, found', same'⟩ := Option.map_eq_some_iff.mp filed'
  obtain ⟨place, written, hashless, read⟩ := place?_located plain (one.located plain) found
  obtain ⟨place', written', hashless', read'⟩ := place?_located plain (two.located plain) found'
  dsimp only at same same' written written' read read'
  subst written written'
  obtain ⟨rfl, rfl⟩ := targetKey_inj hashless hashless' (same.trans same'.symm)
  rw [read] at read'
  cases read'
  rw [target?, found, target?, found']

/-- A reference that is met is filed under a key and leads to a target. -/
def Filed (job : Job) (key : String) (target : Target) : Prop :=
  ∃ home, job.Met home ∧ ∃ reference ∈ referencesOf home.value,
    job.key? home reference = some key ∧ job.target? home reference = some target

theorem Plain.filed_unique (plain : job.Plain) {other : Target} (filed : job.Filed key target)
    (filed' : job.Filed key other) : target = other := by
  obtain ⟨first, one, reference, -, key, leads⟩ := filed
  obtain ⟨second, two, reference', -, key', leads'⟩ := filed'
  have same := plain.target?_eq one two key key'
  rw [leads, leads'] at same
  exact Option.some.inj same

theorem Plain.keysAgree (plain : job.Plain) : job.KeysAgree :=
  fun _ _ one two _ _ _ _ _ filed filed' leads => plain.target?_eq one two filed filed' ▸ leads

theorem Sound.target?_of_link (sound : job.Sound survey) (plain : job.Plain) (met : job.Met home)
    (link : job.link? home reference = some key) (filed : survey.target? key = some target) :
    job.target? home reference = some target := by
  obtain ⟨other, met', reference', -, filed', leads⟩ := sound.targets key target filed
  exact (plain.target?_eq met met' (link?_eq_some.mp link).2 filed').trans leads

end Job

/-- What a loader at work has to do with a document. -/
def Work.job (work : Work) (document : Value) (location : Option String) : Job :=
  ⟨surroundings work, work.loader.documents, document, location⟩

theorem loadRaw_lookup {location : String} {document : Value} {before work : Work}
    (loaded : (loadRaw location).run before = (.ok document, work)) :
    work.loader.documents.lookup location = some document := by
  rw [loadRaw, run_bind, run_get] at loaded
  dsimp only at loaded
  cases listed : before.loader.documents.lookup location with
  | some value =>
      rw [listed] at loaded
      cases loaded
      exact listed
  | none =>
      rw [listed] at loaded
      dsimp only at loaded
      split at loaded
      · cases loaded
      · cases loaded
        exact lookup_concat_self listed document

/-- A document that was loaded is the one that its location stands for. -/
theorem Work.job_located {location : String} (hashless : Hashless location) {document : Value}
    {before work : Work} (loaded : (loadRaw location).run before = (.ok document, work)) :
    (work.job document (some location)).Located document (some location) := by
  refine ⟨location, rfl, hashless, ?_⟩
  change (work.loader.documents.lookup location).or _ = some document
  rw [loadRaw_lookup loaded, Option.some_or]

theorem Work.job_plain {location : String} (hashless : Hashless location) {document : Value}
    {before work : Work} (loaded : (loadRaw location).run before = (.ok document, work))
    (here : ∀ name ∈ work.world.disk.workingDirectory, Hashless name) :
    (work.job document (some location)).Plain :=
  ⟨Work.job_located hashless loaded, here⟩

/-! Pages that refer to files. -/

/-- A page on the web, beside a disk that may refuse to tell what is at a path. -/
def pageWork (disk : Disk) (refuses : FilePath → Option Errno) (text : String) : Work where
  loader := { followsRedirections := false }
  world :=
    { disk, web := [("http://h/a", ⟨200, [], text⟩)], access := { presence := refuses } }

def pageLoaded (disk : Disk) (refuses : FilePath → Option Errno) (text : String) (tree : Value) :
    Work where
  loader := { followsRedirections := false, documents := [("http://h/a", tree)] }
  world := (pageWork disk refuses text).world

theorem page_loaded {disk : Disk} {refuses : FilePath → Option Errno} {text : String} {tree : Value}
    (read : (content (pageWork disk refuses text).world false "http://h/a").toOption = some tree) :
    (loadRaw "http://h/a").run (pageWork disk refuses text) =
      (.ok tree, pageLoaded disk refuses text tree) := by
  have new : (pageWork disk refuses text).loader.documents.lookup "http://h/a" = none := rfl
  have stays : (pageWork disk refuses text).loader.followsRedirections = false := rfl
  rw [loadRaw_run, new, stays, eq_ok_of_toOption read]
  rfl

def referenceTo (target : String) : Value :=
  .record [("$ref", .text target)]

def schemaWith (property : String) : Value :=
  .record [("properties", .record [(property, .record [])])]

/-- The text of an object with two references, each with the name it has there. -/
def pairText (one other : String × String) : String :=
  let entry (named : String × String) :=
    "\"" ++ named.1 ++ "\":\x7b\"$ref\":\"" ++ named.2 ++ "\"\x7d"
  "\x7b" ++ entry one ++ "," ++ entry other ++ "\x7d"

def pairTree (one other : String × String) : Value :=
  .record [(one.1, referenceTo one.2), (other.1, referenceTo other.2)]

/--
A directory whose name has a hash sign. In the file `x:a` there are references to `y#/q` and to
`../w#d/y#/q`. The first of them leads into the file beside it, the other, as an address ends with the
first hash sign, into the file `/w`.
-/
def markedDisk : Disk where
  entries := [
    (["w"], .file ("\x7b\"d\":\x7b\"y#\":\x7b\"q\":" ++
      "\x7b\"properties\":\x7b\"far\":\x7b\x7d\x7d\x7d\x7d\x7d\x7d").toUTF8),
    (["w#d"], .directory),
    (["w#d", "y"],
      .file "\x7b\"q\":\x7b\"properties\":\x7b\"near\":\x7b\x7d\x7d\x7d\x7d".toUTF8),
    (["w#d", "x:a"], .file ("\x7b\"one\":\x7b\"allOf\":[\x7b\"$ref\":\"y#/q\"\x7d]\x7d," ++
      "\"two\":\x7b\"allOf\":[\x7b\"$ref\":\"../w#d/y#/q\"\x7d]\x7d\x7d").toUTF8)]
  workingDirectory := ["w#d"]

def nearLink : String × String :=
  ("one", "x:a#/one")

def farLink : String × String :=
  ("two", "x:a#/two")

abbrev markedWork (first second : String × String) : Work :=
  pageWork markedDisk (fun _ => none) (pairText first second)

abbrev markedLoaded (first second : String × String) : Work :=
  pageLoaded markedDisk (fun _ => none) (pairText first second) (pairTree first second)

abbrev markedJob (first second : String × String) : Job :=
  (markedLoaded first second).job (pairTree first second) (some "http://h/a")

def markedSchema (property : String) : Value :=
  .record [("allOf", .list [schemaWith property])]

/-- The page with the references in it followed, down to properties of these names. -/
def markedResult (first second : String) : Value :=
  .record [("one", markedSchema first), ("two", markedSchema second)]

section Marked

set_option maxRecDepth 10000

theorem marked_forward : (loadRaw "http://h/a").run (markedWork nearLink farLink) =
    (.ok (pairTree nearLink farLink), markedLoaded nearLink farLink) :=
  page_loaded (by decide +kernel)

theorem marked_backward : (loadRaw "http://h/a").run (markedWork farLink nearLink) =
    (.ok (pairTree farLink nearLink), markedLoaded farLink nearLink) :=
  page_loaded (by decide +kernel)

/-- Two references that lead to different targets are filed under one key there. -/
theorem marked_filed :
    let job := markedJob nearLink farLink
    let near := job.target? job.start "x:a#/one"
    let far := job.target? job.start "x:a#/two"
    (near.bind (job.key? · "y#/q")) = some "/w#d/y#/q" ∧
      (near.bind (job.target? · "y#/q")).map Target.value = some (schemaWith "near") ∧
      (far.bind (job.key? · "../w#d/y#/q")) = some "/w#d/y#/q" ∧
      (far.bind (job.target? · "../w#d/y#/q")).map Target.value = some (schemaWith "far") := by
  decide +kernel

end Marked

/-! So with two files that it is refused to tell of whether they are there. -/

def barred (path : FilePath) : Option Errno :=
  if path.segments ∈ [["x:b"], ["x:c"]] then some .denied else none

def barredB : String × String :=
  ("b", "x:b#/x")

def barredC : String × String :=
  ("c", "x:c#/x")

abbrev barredWork (first second : String × String) : Work :=
  pageWork {} barred (pairText first second)

abbrev barredLoaded (first second : String × String) : Work :=
  pageLoaded {} barred (pairText first second) (pairTree first second)

abbrev barredJob (first second : String × String) : Job :=
  (barredLoaded first second).job (pairTree first second) (some "http://h/a")

def barredFault (name : String) : Problem :=
  .undeclared (.disk { errno := .denied, path := ⟨false, [name]⟩ })

theorem barred_forward : (loadRaw "http://h/a").run (barredWork barredB barredC) =
    (.ok (pairTree barredB barredC), barredLoaded barredB barredC) :=
  page_loaded (by decide +kernel)

theorem barred_backward : (loadRaw "http://h/a").run (barredWork barredC barredB) =
    (.ok (pairTree barredC barredB), barredLoaded barredC barredB) :=
  page_loaded (by decide +kernel)

end ApiCompiler.Loading
