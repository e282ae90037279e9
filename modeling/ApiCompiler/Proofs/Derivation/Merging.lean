import ApiCompiler.Proofs.Derivation.References

/-!
Merging the parameters of a path with those of an operation: at which reference it stops, what it
keeps of a name that comes again, and that merging in two rounds is merging in one.
-/

namespace ApiCompiler.Derivation

open Openapi

theorem resolveFrom_eq_error {location : String} {index : Nat} {nodes : List (Node Parameter)}
    {problem : Problem} (failed : resolveFrom location index nodes = .error problem) :
    ∃ (before : List Parameter) (r : Reference) (after : List (Node Parameter)),
      nodes = before.map .inline ++ .reference r :: after ∧
      problem = .declared (.unresolved r.target
        (some (location ++ " parameters[" ++ toString (index + before.length) ++ "]"))) := by
  induction nodes generalizing index with
  | nil => cases failed
  | cons node nodes ih =>
      cases node with
      | reference r =>
          cases failed
          exact ⟨[], r, nodes, rfl, rfl⟩
      | inline parameter =>
          cases later : resolveFrom location (index + 1) nodes with
          | ok others =>
              simp only [resolveFrom, resolved, later] at failed
              cases failed
          | error found =>
              simp only [resolveFrom, resolved, later] at failed
              cases failed
              obtain ⟨before, r, after, rfl, rfl⟩ := ih later
              refine ⟨parameter :: before, r, after, rfl, ?_⟩
              rw [List.length_cons, Nat.add_right_comm, Nat.add_assoc]

theorem mergeParameters_eq_error {shared own : List (Node Parameter)} {location : String}
    {problem : Problem} (failed : mergeParameters shared own location = .error problem) :
    ∃ (before : List Parameter) (r : Reference) (after : List (Node Parameter)),
      shared ++ own = before.map .inline ++ .reference r :: after ∧
      problem = .declared (.unresolved r.target
        (some (location ++ " parameters[" ++ toString before.length ++ "]"))) := by
  have first : resolveFrom location 0 (shared ++ own) = .error problem := by
    cases found : resolveFrom location 0 (shared ++ own) with
    | ok parameters =>
        simp only [mergeParameters, found] at failed
        cases failed
    | error other =>
        simp only [mergeParameters, found] at failed
        cases failed
        rfl
  simpa using resolveFrom_eq_error first

/-! Without references. -/

def named (parameters : List Parameter) : List (String × Parameter) :=
  parameters.map fun p => (p.name, p)

/-- What is left of parameters some of which have the same name. -/
def latest (parameters : List Parameter) : List Parameter :=
  (Named.ofList (named parameters)).map Prod.snd

theorem named_latest (parameters : List Parameter) :
    named (latest parameters) = Named.ofList (named parameters) := by
  have kept : ∀ pair ∈ Named.ofList (named parameters), (pair.2.name, pair.2) = pair := by
    intro pair member
    obtain ⟨parameter, -, rfl⟩ := List.mem_map.mp (Named.mem_ofList member)
    rfl
  rw [named, latest, List.map_map]
  exact (List.map_congr_left kept).trans (List.map_id _)

theorem map_name_latest (parameters : List Parameter) :
    (latest parameters).map Parameter.name = (parameters.map Parameter.name).eraseDups := by
  have names (list : List Parameter) : (named list).map Prod.fst = list.map Parameter.name :=
    List.map_map
  rw [← names, named_latest, Named.map_fst_ofList, names]

theorem latest_latest_append (first second : List Parameter) :
    latest (latest first ++ second) = latest (first ++ second) := by
  have parts (list : List Parameter) : named (list ++ second) = named list ++ named second :=
    List.map_append
  rw [latest, parts, named_latest, Named.ofList_ofList_append, ← parts]
  rfl

theorem mergeParameters_eq_ok {shared own : List (Node Parameter)}
    (free : ∀ r, .reference r ∉ shared ++ own) (location : String) :
    mergeParameters shared own location = .ok (latest (Node.inPlace (shared ++ own))) := by
  obtain ⟨parameters, found⟩ :=
    (resolveFrom_failsWhen location 0 (shared ++ own)).succeeds fun ⟨r, member⟩ => free r member
  obtain rfl := resolveFrom_eq_ok found
  rw [mergeParameters, found]
  rfl

theorem inPlace_append (first second : List (Node Parameter)) :
    Node.inPlace (first ++ second) = Node.inPlace first ++ Node.inPlace second :=
  List.filterMap_append

/-- Parameters that were merged before are merged with more as if all were merged at once. -/
theorem mergeParameters_merged {shared own third : List (Node Parameter)}
    (free : ∀ r, .reference r ∉ shared ++ own) (freeThird : ∀ r, .reference r ∉ third)
    (location : String) :
    mergeParameters ((latest (Node.inPlace (shared ++ own))).map .inline) third location =
      mergeParameters shared (own ++ third) location := by
  have before : ∀ r, .reference r ∉
      (latest (Node.inPlace (shared ++ own))).map Node.inline ++ third := by
    simpa using freeThird
  have together : ∀ r, .reference r ∉ shared ++ (own ++ third) := by
    intro r member
    rw [← List.append_assoc, List.mem_append] at member
    exact member.elim (free r) (freeThird r)
  rw [mergeParameters_eq_ok before, mergeParameters_eq_ok together, inPlace_append,
    Node.inPlace_inline, latest_latest_append, ← inPlace_append, List.append_assoc]

/--
Merging fails exactly at a reference, and it tells the first one with its place in the two lists
together. Otherwise every name comes once, in the order in which the names came first, with the last
parameter of that name: an operation's own parameters win, and what they do not name stays. More
parameters may be merged afterwards or at once.
-/
theorem mergeParameters_overrides (shared own : List (Node Parameter)) (location : String) :
    ((∃ problem, mergeParameters shared own location = .error problem) ↔
        ∃ r, .reference r ∈ shared ++ own) ∧
      (∀ problem, mergeParameters shared own location = .error problem →
        ∃ (before : List Parameter) (r : Reference) (after : List (Node Parameter)),
          shared ++ own = before.map .inline ++ .reference r :: after ∧
          problem = .declared (.unresolved r.target
            (some (location ++ " parameters[" ++ toString before.length ++ "]")))) ∧
      ((∀ r, .reference r ∉ shared ++ own) → ∃ merged,
        mergeParameters shared own location = .ok merged ∧
        (merged.map Parameter.name).Nodup ∧
        merged.map Parameter.name =
          ((Node.inPlace (shared ++ own)).map Parameter.name).eraseDups ∧
        (∀ parameter, parameter ∈ merged ↔
          IsLast Parameter.name parameter (Node.inPlace (shared ++ own))) ∧
        (∀ parameter, IsLast Parameter.name parameter (Node.inPlace own) → parameter ∈ merged) ∧
        (∀ parameter, IsLast Parameter.name parameter (Node.inPlace shared) →
          parameter.name ∉ (Node.inPlace own).map Parameter.name → parameter ∈ merged) ∧
        ∀ third, (∀ r, .reference r ∉ third) →
          mergeParameters (merged.map .inline) third location =
            mergeParameters shared (own ++ third) location) := by
  refine ⟨⟨?_, ?_⟩, fun problem failed => mergeParameters_eq_error failed, fun free => ?_⟩
  · rintro ⟨problem, failed⟩
    obtain ⟨before, r, after, split, -⟩ := mergeParameters_eq_error failed
    exact ⟨r, by simp [split]⟩
  · intro met
    obtain ⟨target, place, failed⟩ := (mergeParameters_failsWhen shared own location).fails met
    exact ⟨_, failed⟩
  · have merged := mergeParameters_eq_ok free location
    have member {parameter : Parameter} := @mem_mergeParameters _ _ _ _ merged parameter
    refine ⟨_, merged, nodup_mergeParameters merged, map_name_latest _, fun _ => member,
      fun parameter last => member.mpr ?_, fun parameter last apart => member.mpr ?_,
      fun third freeThird => mergeParameters_merged free freeThird location⟩
    · rw [inPlace_append]
      exact last.append_left _
    · rw [inPlace_append]
      exact last.append_right apart

example :
    (mergeParameters
        [.inline (plainParameter "id" "path" lostReference),
          .inline (plainParameter "page" "query" lostReference)]
        [.inline (plainParameter "size" "query" lostReference),
          .inline (plainParameter "id" "query" lostReference),
          .inline (plainParameter "id" "header" lostReference)] "test").map
      (fun merged => merged.map fun p => (p.name, p.place)) =
    .ok [("id", "header"), ("page", "query"), ("size", "query")] := by
  rfl

end ApiCompiler.Derivation
