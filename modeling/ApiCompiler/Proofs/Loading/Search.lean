import ApiCompiler.Proofs.Loading.Forest

/-!
What a search for cycles keeps true at every step: each cycle it knows is that of a target, and no
reference of a target on the stack is missed.
-/

namespace ApiCompiler.Loading

open Relation

variable {next : String → List String}

theorem lookup_cons_of_ne {α : Type} {first key : String} (apart : key ≠ first) {value : α}
    {entries : List (String × α)} :
    ((first, value) :: entries).lookup key = entries.lookup key := by
  rw [List.lookup_cons, beq_eq_false_iff_ne.mpr apart]

/-! The cycles that are known. -/

namespace Cycles

variable {cycles : Cycles} {members cycle : List String}

def Knows (cycles : Cycles) (key : String) : Prop :=
  (cycles.lookup key).isSome

/-- What is known is true, and known too of all that a target leads to. -/
structure Exact (next : String → List String) (cycles : Cycles) : Prop where
  distinct : ∀ key cycle, cycles.lookup key = some cycle → cycle.Nodup
  members : ∀ key cycle, cycles.lookup key = some cycle →
    ∀ other, other ∈ cycle ↔ Mutual next key other
  closed : ∀ key, cycles.Knows key → ∀ link ∈ next key, cycles.Knows link

theorem Exact.nil : Exact next [] :=
  ⟨nofun, nofun, nofun⟩

theorem Exact.onward (known : Exact next cycles) {a b : String}
    (there : ReflTransGen (Step next) a b) (start : cycles.Knows a) : cycles.Knows b := by
  induction there with
  | refl => exact start
  | tail _ step ih => exact known.closed _ ih _ step

theorem lookup_record (cycles : Cycles) (members cycle : List String) (key : String) :
    (cycles.record members cycle).lookup key =
      if key ∈ members then some cycle else cycles.lookup key := by
  induction members with
  | nil => rfl
  | cons member members ih =>
      have unfolded : cycles.record (member :: members) cycle =
          (member, cycle) :: cycles.record members cycle := rfl
      rw [unfolded]
      by_cases same : key = member
      · simp [same]
      · rw [lookup_cons_of_ne same, ih]
        simp [same]

theorem knows_record {key : String} :
    (cycles.record members cycle).Knows key ↔ key ∈ members ∨ cycles.Knows key := by
  rw [Knows, lookup_record]
  split <;> simp [*, Knows]

theorem Exact.record (known : Exact next cycles) (distinct : cycle.Nodup)
    (exactly : ∀ member ∈ members, ∀ other, other ∈ cycle ↔ Mutual next member other)
    (closed : ∀ member ∈ members, ∀ link ∈ next member, link ∈ members ∨ cycles.Knows link) :
    Exact next (cycles.record members cycle) := by
  refine ⟨fun key found listed => ?_, fun key found listed => ?_, fun key listed link step => ?_⟩
  · rw [lookup_record] at listed
    split at listed
    · cases listed
      exact distinct
    · exact known.distinct key found listed
  · rw [lookup_record] at listed
    split at listed
    · cases listed
      exact exactly key ‹_›
    · exact known.members key found listed
  · rw [knows_record] at listed ⊢
    rcases listed with member | earlier
    · exact closed key member link step
    · exact .inr (known.closed key earlier link step)

end Cycles

namespace Search

variable {search after : Search} {key other link : String} {links : List String}
  {path front : List (String × List String)}

/-! What a step changes. -/

theorem getD_lookup_cons (numbers : List (String × Nat)) (key : String) (number : Nat) :
    (fun other => (((key, number) :: numbers).lookup other).getD 0) =
      Function.update (fun other => (numbers.lookup other).getD 0) key number := by
  funext other
  by_cases same : other = key
  · simp [same]
  · rw [lookup_cons_of_ne same, Function.update_of_ne same]

theorem indexOf_enter (search : Search) (key : String) :
    (search.enter next key).indexOf =
      Function.update search.indexOf key search.index.length :=
  getD_lookup_cons ..

theorem lowOf_enter (search : Search) (key : String) :
    (search.enter next key).lowOf = Function.update search.lowOf key search.index.length :=
  getD_lookup_cons ..

theorem lowOf_lower (search : Search) (key : String) (number : Nat) :
    (search.lower key number).lowOf =
      Function.update search.lowOf key (min (search.lowOf key) number) :=
  getD_lookup_cons ..

theorem close_eq (search : Search) {newer older : List String}
    (split : search.stack = newer ++ key :: older) (fresh : key ∉ newer) :
    search.close next key =
      { search with
        cycles := search.cycles.record (newer ++ [key]) (cycleAmong next (newer ++ [key]) key)
        stack := older } := by
  have others : ∀ other ∈ newer, decide (other ≠ key) = true := fun other inside =>
    decide_eq_true (ne_of_mem_of_not_mem inside fresh)
  rw [close, split, List.takeWhile_append_of_pos others, List.dropWhile_append_of_pos others]
  simp

theorem pass_path (search : Search) (key : String) (path : List (String × List String)) :
    (search.pass key path).path = search.path := by
  cases path <;> rfl

theorem pass_index (search : Search) (key : String) (path : List (String × List String)) :
    (search.pass key path).index = search.index := by
  cases path <;> rfl

theorem pass_stack (search : Search) (key : String) (path : List (String × List String)) :
    (search.pass key path).stack = search.stack := by
  cases path <;> rfl

theorem pass_cycles (search : Search) (key : String) (path : List (String × List String)) :
    (search.pass key path).cycles = search.cycles := by
  cases path <;> rfl

/-- What one step can do. -/
inductive Moves (next : String → List String) (search : Search) : Search → Prop
  | rest : search.path = [] → Moves next search search
  | leave {key : String} {path : List (String × List String)} :
      search.path = (key, []) :: path → Moves next search (search.leave next key path)
  | skip {key link : String} {links : List String} {path : List (String × List String)} :
      search.path = (key, link :: links) :: path →
      search.cycles.Knows link ∨ (search.index.lookup link).isSome ∧ link ∉ search.stack →
      Moves next search { search with path := (key, links) :: path }
  | enter {key link : String} {links : List String} {path : List (String × List String)} :
      search.path = (key, link :: links) :: path →
      ¬search.cycles.Knows link → search.index.lookup link = none →
      Moves next search (Search.enter next { search with path := (key, links) :: path } link)
  | lower {key link : String} {links : List String} {path : List (String × List String)} :
      search.path = (key, link :: links) :: path → link ∈ search.stack →
      Moves next search
        (Search.lower { search with path := (key, links) :: path } key (search.indexOf link))

theorem step_moves (next : String → List String) (search : Search) :
    Moves next search (search.step next) := by
  rw [step]
  split
  · exact .rest ‹_›
  · exact .leave ‹_›
  · rename_i key link links path ahead
    dsimp only
    split
    · exact .skip ahead (.inl ‹_›)
    · split
      · exact .enter ahead ‹_› (Option.isNone_iff_eq_none.mp ‹_›)
      · rename_i met
        split
        · exact .lower ahead (List.contains_iff_mem.mp ‹_›)
        · rename_i outside
          exact .skip ahead (.inr ⟨by simpa using met, by simpa using outside⟩)

/-! References that are still to be followed. -/

/-- A reference of a target on the path has not been followed. -/
def Awaits (path : List (String × List String)) (key link : String) : Prop :=
  ∃ links, (key, links) ∈ path ∧ link ∈ links

theorem awaits_nil : ¬Awaits [] key link := by
  rintro ⟨links, listed, -⟩
  cases listed

theorem awaits_cons {other : String} : Awaits ((other, links) :: path) key link ↔
    key = other ∧ link ∈ links ∨ Awaits path key link := by
  constructor
  · rintro ⟨more, listed, inside⟩
    rcases List.mem_cons.mp listed with here | later
    · cases here
      exact .inl ⟨rfl, inside⟩
    · exact .inr ⟨more, later, inside⟩
  · rintro (⟨rfl, inside⟩ | ⟨more, listed, inside⟩)
    · exact ⟨links, List.mem_cons_self, inside⟩
    · exact ⟨more, List.mem_cons_of_mem _ listed, inside⟩

theorem awaits_append : Awaits (front ++ path) key link ↔
    Awaits front key link ∨ Awaits path key link := by
  simp only [Awaits, List.mem_append, or_and_right, exists_or]

theorem awaits_left : Awaits ((other, []) :: path) key link ↔ Awaits path key link := by
  simp [awaits_cons]

theorem awaits_follow {reference : String} :
    Awaits (front ++ (other, link :: links) :: path) key reference ↔
      key = other ∧ reference = link ∨ Awaits (front ++ (other, links) :: path) key reference := by
  simp only [awaits_append, awaits_cons, List.mem_cons, and_or_left, or_assoc]
  exact or_left_comm

/-! What is known during a search. -/

def keys (search : Search) : List String :=
  search.path.map Prod.fst

/--
A reference of a target was taken into account. What it leads to is known, or it is on the stack, and
whichever target on the path was met no later than the first one, that target or one after it has a low
number that is no greater.
-/
def Accounts (search : Search) (key link : String) : Prop :=
  search.cycles.Knows link ∨ link ∈ search.stack ∧
    ∀ p ∈ search.keys, search.indexOf p ≤ search.indexOf key →
      ∃ q ∈ search.keys, search.indexOf p ≤ search.indexOf q ∧ search.lowOf q ≤ search.indexOf link

/--
What is true of a search at every step: all that it met is on the stack or known, and no reference of a
target on the stack is forgotten.
-/
structure Sound (next : String → List String) (search : Search) : Prop where
  known : search.cycles.Exact next
  unknown : ∀ key ∈ search.stack, ¬search.cycles.Knows key
  met : ∀ key, (search.index.lookup key).isSome → key ∈ search.stack ∨ search.cycles.Knows key
  numbered : ∀ key ∈ search.stack, ∃ number, search.index.lookup key = some number ∧
    number < search.index.length
  forest : Forest next search.stack search.keys search.indexOf search.lowOf
  awaited : ∀ key link, Awaits search.path key link → link ∈ next key
  covered : ∀ key ∈ search.stack, ∀ link ∈ next key,
    search.Accounts key link ∨ Awaits search.path key link

namespace Sound

theorem start {cycles : Cycles} (known : cycles.Exact next) : Sound next { cycles } :=
  ⟨known, nofun, nofun, nofun, .nil, fun _ _ waits => absurd waits awaits_nil, nofun⟩

theorem indexOf_lt (sound : search.Sound next) (listed : key ∈ search.stack) :
    search.indexOf key < search.index.length := by
  obtain ⟨number, found, less⟩ := sound.numbered key listed
  rwa [indexOf, found]

/-- A search with nothing left on its path knows all that it met. -/
theorem knows_of_path_eq_nil (sound : search.Sound next) (done : search.path = [])
    (met : (search.index.lookup key).isSome) : search.cycles.Knows key := by
  refine (sound.met key met).resolve_left fun listed => ?_
  obtain ⟨p, inside, -⟩ := sound.forest.returns key listed
  rw [keys, done] at inside
  cases inside

section Enter

variable (sound : search.Sound next) (new : search.index.lookup key = none)
include sound new

theorem ne_of_new (listed : other ∈ search.stack) : other ≠ key := by
  rintro rfl
  obtain ⟨number, found, -⟩ := sound.numbered other listed
  rw [new] at found
  cases found

theorem indexOf_enter_of_mem (listed : other ∈ search.stack) :
    (search.enter next key).indexOf other = search.indexOf other := by
  rw [indexOf_enter, Function.update_of_ne (sound.ne_of_new new listed)]

theorem lowOf_enter_of_mem (listed : other ∈ search.stack) :
    (search.enter next key).lowOf other = search.lowOf other := by
  rw [lowOf_enter, Function.update_of_ne (sound.ne_of_new new listed)]

theorem indexOf_enter_lt (listed : other ∈ search.stack) :
    (search.enter next key).indexOf other < (search.enter next key).indexOf key := by
  rw [sound.indexOf_enter_of_mem new listed, indexOf_enter, Function.update_self]
  exact sound.indexOf_lt listed

theorem accounts_enter (listed : other ∈ search.stack) (accounted : search.Accounts other link) :
    (search.enter next key).Accounts other link := by
  rcases accounted with known | ⟨there, reaching⟩
  · exact .inl known
  · refine .inr ⟨List.mem_cons_of_mem _ there,
      List.forall_mem_cons.mpr ⟨fun before => ?_, fun p inside before => ?_⟩⟩
    · exact absurd (sound.indexOf_enter_lt new listed) (Nat.not_lt.mpr before)
    · have onStack := sound.forest.onStack
      rw [sound.indexOf_enter_of_mem new (onStack p inside),
        sound.indexOf_enter_of_mem new listed] at before
      obtain ⟨q, among, after, lowest⟩ := reaching p inside before
      refine ⟨q, List.mem_cons_of_mem _ among, ?_, ?_⟩
      · rwa [sound.indexOf_enter_of_mem new (onStack p inside),
          sound.indexOf_enter_of_mem new (onStack q among)]
      · rwa [sound.lowOf_enter_of_mem new (onStack q among), sound.indexOf_enter_of_mem new there]

theorem enter (unknown : ¬search.cycles.Knows key)
    (refers : ∀ parent ∈ search.keys.head?, key ∈ next parent) :
    Sound next (search.enter next key) := by
  refine ⟨sound.known, List.forall_mem_cons.mpr ⟨unknown, sound.unknown⟩, fun other found => ?_,
    List.forall_mem_cons.mpr ⟨?_, fun other listed => ?_⟩, ?_, fun other reference waits => ?_,
    List.forall_mem_cons.mpr ⟨fun link step => ?_, fun other listed link step => ?_⟩⟩
  · by_cases same : other = key
    · exact .inl (same ▸ List.mem_cons_self)
    · rw [Search.enter, lookup_cons_of_ne same] at found
      exact (sound.met other found).imp (List.mem_cons_of_mem _) id
  · exact ⟨search.index.length, by simp [Search.enter], by simp [Search.enter]⟩
  · obtain ⟨number, found, less⟩ := sound.numbered other listed
    refine ⟨number, ?_, Nat.lt_succ_of_lt less⟩
    rw [Search.enter, lookup_cons_of_ne (sound.ne_of_new new listed)]
    exact found
  · have before := sound.forest.congr (fun _ => sound.indexOf_enter_of_mem new)
      fun _ => sound.lowOf_enter_of_mem new
    refine before.enter (fun _ => sound.indexOf_enter_lt new) ?_ refers
    rw [indexOf_enter, lowOf_enter, Function.update_self, Function.update_self]
  · rcases awaits_cons.mp waits with ⟨rfl, step⟩ | earlier
    · exact step
    · exact sound.awaited other reference earlier
  · exact .inr (awaits_cons.mpr (.inl ⟨rfl, step⟩))
  · exact (sound.covered other listed link step).imp (sound.accounts_enter new listed)
      fun waits => awaits_cons.mpr (.inr waits)

end Enter

theorem lower (sound : search.Sound next) (inside : key ∈ search.keys) {number : Nat}
    (found : ∃ other ∈ search.stack, search.indexOf other = number ∧
      ReflTransGen (Step next) key other) : Sound next (search.lower key number) := by
  have less : ∀ other, (search.lower key number).lowOf other ≤ search.lowOf other := by
    intro other
    rw [lowOf_lower]
    by_cases same : other = key
    · rw [same, Function.update_self]
      exact Nat.min_le_left ..
    · exact Nat.le_of_eq (Function.update_of_ne same ..)
  refine ⟨sound.known, sound.unknown, sound.met, sound.numbered, ?_, sound.awaited,
    fun other listed link step => ?_⟩
  · rw [lowOf_lower]
    exact sound.forest.lower inside found
  · refine (sound.covered other listed link step).imp_left (Or.imp_right fun accounted => ?_)
    refine ⟨accounted.1, fun p among before => ?_⟩
    obtain ⟨q, onPath, after, lowest⟩ := accounted.2 p among before
    exact ⟨q, onPath, after, Nat.le_trans (less q) lowest⟩

/-- A reference that is accounted for need not be followed. -/
theorem follow (sound : search.Sound next) (front : List (String × List String))
    (split : search.path = front ++ (key, link :: links) :: path)
    (accounted : search.Accounts key link) :
    Sound next { search with path := front ++ (key, links) :: path } := by
  have same : keys { search with path := front ++ (key, links) :: path } = search.keys := by
    simp [keys, split]
  refine ⟨sound.known, sound.unknown, sound.met, sound.numbered, ?_,
    fun other reference waits => ?_, fun other listed reference step => ?_⟩
  · rw [same]
    exact sound.forest
  · exact sound.awaited other reference (split ▸ awaits_follow.mpr (.inr waits))
  · rw [Accounts, same]
    rcases sound.covered other listed reference step with already | waits
    · exact .inl already
    · rw [split, awaits_follow] at waits
      rcases waits with ⟨rfl, rfl⟩ | still
      · exact .inl accounted
      · exact .inr still

end Sound

/-! A target of which all references were followed. -/

section Left

variable (left : search.path = (key, []) :: path)
include left

theorem keys_left : search.keys = key :: path.map Prod.fst := by
  rw [keys, left]
  rfl

namespace Sound

variable (sound : search.Sound next)
include sound

theorem forest_left : Forest next search.stack (key :: path.map Prod.fst) search.indexOf
    search.lowOf := by
  rw [← keys_left left]
  exact sound.forest

theorem covered_left : ∀ other ∈ search.stack, ∀ link ∈ next other,
    search.Accounts other link ∨ Awaits path other link := by
  intro other listed link step
  rw [← awaits_left, ← left]
  exact sound.covered other listed link step

theorem pass : (search.pass key path).Sound next := by
  cases path with
  | nil => exact sound
  | cons frame path =>
      obtain ⟨parent, rest⟩ := frame
      have forest := sound.forest_left left
      have onPath : parent ∈ key :: (((parent, rest) :: path).map Prod.fst) := by simp
      obtain ⟨other, listed, number, there⟩ := forest.attained key List.mem_cons_self
      have onward := forest.reaches parent onPath key (forest.onStack key List.mem_cons_self)
        (forest.index_le_newest onPath)
      exact sound.lower (keys_left left ▸ onPath) ⟨other, listed, number, onward.trans there⟩

theorem lowOf_pass : ∀ parent ∈ (path.map Prod.fst).head?,
    (search.pass key path).lowOf parent ≤ (search.pass key path).lowOf key := by
  have forest := sound.forest_left left
  cases path with
  | nil => nofun
  | cons frame path =>
      obtain ⟨parent, rest⟩ := frame
      have before : search.indexOf parent < search.indexOf key :=
        (List.pairwise_cons.mp forest.descending).1 parent List.mem_cons_self
      have apart : key ≠ parent := by
        rintro rfl
        exact Nat.lt_irrefl _ before
      rintro _ ⟨⟩
      rw [Search.pass, lowOf_lower, Function.update_self, Function.update_of_ne apart]
      exact Nat.min_le_right ..

theorem back (less : search.lowOf key < search.indexOf key)
    (passed : ∀ parent ∈ (path.map Prod.fst).head?, search.lowOf parent ≤ search.lowOf key) :
    Sound next { search with path } := by
  have forest := sound.forest_left left
  refine ⟨sound.known, sound.unknown, sound.met, sound.numbered, forest.back less,
    fun other link waits => sound.awaited other link (left ▸ awaits_left.mpr waits),
    fun other listed link step => ?_⟩
  refine (sound.covered_left left other listed link step).imp_left
    (Or.imp_right fun accounted => ?_)
  refine ⟨accounted.1, fun p inside before => ?_⟩
  obtain ⟨q, among, after, lowest⟩ :=
    accounted.2 p (keys_left left ▸ List.mem_cons_of_mem _ inside) before
  rw [keys_left left] at among
  rcases List.mem_cons.mp among with rfl | earlier
  · -- The target before the one that is left took over its low number.
    cases path with
    | nil => cases inside
    | cons frame path =>
        exact ⟨frame.1, List.mem_cons_self, (forest.back less).index_le_newest inside,
          Nat.le_trans (passed frame.1 rfl) lowest⟩
  · exact ⟨q, earlier, after, lowest⟩

variable {newer older : List String}

/-- What the targets on a cycle refer to lies on it too, or is known. -/
theorem closed_left (least : search.lowOf key = search.indexOf key)
    (split : search.stack = newer ++ key :: older) :
    ∀ member ∈ newer ++ [key], ∀ link ∈ next member,
      link ∈ newer ++ [key] ∨ search.cycles.Knows link := by
  intro member inside link step
  have forest := split ▸ sound.forest_left left
  obtain ⟨listed, after⟩ := forest.index_le_of_newer inside
  rcases sound.covered_left left member (split ▸ listed) link step with
    (known | ⟨there, reaching⟩) | waits
  · exact .inr known
  · obtain ⟨q, among, late, lowest⟩ :=
      reaching key (keys_left left ▸ List.mem_cons_self) after
    rw [keys_left left] at among
    rcases List.mem_cons.mp among with rfl | earlier
    · exact .inl (forest.mem_newer (split ▸ there) (least ▸ lowest))
    · exact absurd (forest.index_lt_of_path earlier) (Nat.not_lt.mpr late)
  · obtain ⟨links, frame, -⟩ := waits
    have before := forest.index_lt_of_path (List.mem_map_of_mem frame)
    exact absurd before (Nat.not_lt.mpr after)

/-- What a target on a cycle leads to lies on it too, or does not lead back. -/
theorem whole_left (least : search.lowOf key = search.indexOf key)
    (split : search.stack = newer ++ key :: older) :
    ∀ member ∈ newer ++ [key], ∀ other, TransGen (Step next) member other →
      ReflTransGen (Step next) other member → other ∈ newer ++ [key] := by
  intro member inside other there back
  have reached : other ∈ newer ++ [key] ∨ search.cycles.Knows other := by
    clear back
    induction there with
    | single step => exact sound.closed_left left least split member inside _ step
    | tail _ step ih =>
        rcases ih with among | known
        · exact sound.closed_left left least split _ among _ step
        · exact .inr (sound.known.closed _ known _ step)
  refine reached.resolve_right fun known => ?_
  have forest := split ▸ sound.forest_left left
  exact sound.unknown member (split ▸ (forest.index_le_of_newer inside).1)
    (sound.known.onward back known)

theorem close (least : search.lowOf key = search.indexOf key) :
    (Search.close next { search with path } key).Sound next := by
  obtain ⟨newer, older, split, fresh⟩ := List.eq_append_cons_of_mem
    ((sound.forest_left left).onStack key List.mem_cons_self)
  have forest := split ▸ sound.forest_left left
  -- What is above the target on the stack is what lies on its cycle, so one record fits each.
  have exactly : ∀ member ∈ newer ++ [key], ∀ other,
      other ∈ cycleAmong next (newer ++ [key]) key ↔ Mutual next member other :=
    fun member inside other => mem_cycleAmong forest.distinct (fun _ => forest.together)
      (sound.whole_left left least split) inside
  have parts : ∀ other, other ∈ search.stack ↔ other ∈ newer ++ [key] ∨ other ∈ older := by
    simp [split, or_assoc]
  have keep : ∀ other ∈ older, other ∈ search.stack := fun other inside =>
    (parts other).mpr (.inr inside)
  rw [close_eq { search with path } split fresh]
  refine ⟨sound.known.record (cycleAmong_nodup forest.distinct) exactly
      (sound.closed_left left least split),
    fun other inside known => ?_, fun other found => ?_,
    fun other inside => sound.numbered other (keep other inside), forest.close,
    fun other link waits => sound.awaited other link (left ▸ awaits_left.mpr waits),
    fun other inside link step => ?_⟩
  · rcases Cycles.knows_record.mp known with among | earlier
    · exact absurd (forest.index_lt_of_older inside)
        (Nat.not_lt.mpr (forest.index_le_of_newer among).2)
    · exact sound.unknown other (keep other inside) earlier
  · rw [Cycles.knows_record]
    rcases sound.met other found with listed | known
    · exact ((parts other).mp listed).symm.imp_right .inl
    · exact .inr (.inr known)
  · refine (sound.covered_left left other (keep other inside) link step).imp_left fun accounted => ?_
    rcases accounted with known | ⟨there, reaching⟩
    · exact .inl (Cycles.knows_record.mpr (.inr known))
    · rcases (parts link).mp there with among | earlier
      · exact .inl (Cycles.knows_record.mpr (.inl among))
      · refine .inr ⟨earlier, fun p onPath before => ?_⟩
        obtain ⟨q, among, after, lowest⟩ :=
          reaching p (keys_left left ▸ List.mem_cons_of_mem _ onPath) before
        rw [keys_left left] at among
        rcases List.mem_cons.mp among with rfl | behind
        · exact absurd (forest.index_lt_of_older earlier) (Nat.not_lt.mpr (least ▸ lowest))
        · exact ⟨q, behind, after, lowest⟩

theorem leave : (search.leave next key path).Sound next := by
  have passed := sound.pass left
  have onward := (search.pass_path key path).trans left
  rw [Search.leave]
  dsimp only
  split
  · exact passed.close onward ‹_›
  · refine passed.back onward ?_ ?_
    · exact Nat.lt_of_le_of_ne ((passed.forest_left onward).low_le key List.mem_cons_self) ‹_›
    · exact sound.lowOf_pass left

/-- A target that is left is on the stack, and no cycle is known of any that is. -/
theorem lookup_leave {cycle : List String} (known : search.cycles.lookup other = some cycle) :
    (search.leave next key path).cycles.lookup other = some cycle := by
  rw [Search.leave]
  dsimp only
  split
  · rw [Search.close, Cycles.lookup_record, if_neg, pass_cycles]
    · exact known
    · intro inside
      have listed : other ∈ search.stack := by
        rw [pass_stack] at inside
        rcases List.mem_append.mp inside with early | here
        · exact (List.takeWhile_prefix _).subset early
        · rw [List.mem_singleton.mp here]
          exact (sound.forest_left left).onStack key List.mem_cons_self
      exact sound.unknown other listed (Option.isSome_of_eq_some known)
  · rwa [pass_cycles]

end Sound

end Left

/-! A target of which some references have to be followed. -/

section Ahead

variable (ahead : search.path = (key, link :: links) :: path) (sound : search.Sound next)
include ahead sound

theorem Sound.mem_next : link ∈ next key :=
  sound.awaited key link (ahead ▸ awaits_cons.mpr (.inl ⟨rfl, List.mem_cons_self⟩))

theorem Sound.discover (unknown : ¬search.cycles.Knows link)
    (new : search.index.lookup link = none) :
    Sound next (Search.enter next { search with path := (key, links) :: path } link) := by
  have entered := sound.enter new unknown fun parent newest => by
    rw [keys, ahead] at newest
    cases newest
    exact sound.mem_next ahead
  refine entered.follow [(link, next link)] (congrArg (_ :: ·) ahead)
    (.inr ⟨List.mem_cons_self, fun p inside before => ⟨link, List.mem_cons_self, ?_, ?_⟩⟩)
  · exact entered.forest.index_le_newest inside
  · exact entered.forest.low_le link List.mem_cons_self

theorem Sound.revisit (listed : link ∈ search.stack) :
    Sound next (Search.lower { search with path := (key, links) :: path } key
      (search.indexOf link)) := by
  have inside : key ∈ search.keys := by simp [keys, ahead]
  have lowered := sound.lower inside ⟨link, listed, rfl, .single (sound.mem_next ahead)⟩
  refine lowered.follow [] ahead (.inr ⟨listed, fun p among before => ⟨key, inside, before, ?_⟩⟩)
  rw [lowOf_lower, Function.update_self]
  exact Nat.min_le_right ..

end Ahead

/-! Steps, and runs of them. -/

theorem Moves.sound (moves : Moves next search after) (sound : search.Sound next) :
    after.Sound next := by
  cases moves with
  | rest _ => exact sound
  | leave left => exact sound.leave left
  | skip ahead known =>
      refine sound.follow [] ahead (.inl (known.elim id fun ⟨met, outside⟩ => ?_))
      exact (sound.met _ met).resolve_left outside
  | enter ahead unknown new => exact sound.discover ahead unknown new
  | lower ahead listed => exact sound.revisit ahead listed

theorem Moves.lookup_cycles (moves : Moves next search after) (sound : search.Sound next)
    {cycle : List String} (known : search.cycles.lookup key = some cycle) :
    after.cycles.lookup key = some cycle := by
  cases moves with
  | leave left => exact sound.lookup_leave left known
  | rest _ => exact known
  | skip _ _ => exact known
  | enter _ _ _ => exact known
  | lower _ _ => exact known

theorem leave_index (search : Search) (key : String) (path : List (String × List String)) :
    (search.leave next key path).index = search.index := by
  rw [leave]
  dsimp only
  split <;> exact search.pass_index key path

theorem leave_path (search : Search) (key : String) (path : List (String × List String)) :
    (search.leave next key path).path = path := by
  rw [leave]
  dsimp only
  split <;> rfl

theorem Moves.isSome_lookup_index (moves : Moves next search after)
    (met : (search.index.lookup key).isSome) : (after.index.lookup key).isSome := by
  cases moves with
  | leave _ => rwa [leave_index]
  | enter _ _ _ =>
      rw [Search.enter, List.lookup_cons]
      split
      · rfl
      · exact met
  | rest _ => exact met
  | skip _ _ => exact met
  | lower _ _ => exact met

/-- A whole run keeps what is known of a search, the cycles it knows and the targets it has met. -/
theorem Sound.run (sound : search.Sound next) (steps : Nat) :
    (Search.run next steps search).Sound next ∧
      (∀ key cycle, search.cycles.lookup key = some cycle →
        (Search.run next steps search).cycles.lookup key = some cycle) ∧
      ∀ key, (search.index.lookup key).isSome →
        ((Search.run next steps search).index.lookup key).isSome := by
  induction steps generalizing search with
  | zero => exact ⟨sound, fun _ _ known => known, fun _ met => met⟩
  | succ steps ih =>
      rw [Search.run]
      split
      · exact ⟨sound, fun _ _ known => known, fun _ met => met⟩
      · have moves := search.step_moves next
        obtain ⟨after, kept, still⟩ := ih (moves.sound sound)
        exact ⟨after, fun key cycle known => kept key cycle (moves.lookup_cycles sound known),
          fun key met => still key (moves.isSome_lookup_index met)⟩

end Search

end ApiCompiler.Loading
