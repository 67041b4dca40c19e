import ApiCanon.Proofs.Diff.Endpoints
import ApiCanon.Proofs.Diff.Schemas
import ApiCanon.Proofs.Diff.Validity

/-!
# Silent comparisons

When a comparison of two descriptions finds nothing.  `changes_eq_nil_iff` splits silence into
endpoints, removals and schemas; from it follow the two statements about whole comparisons.

* With everything compared, a comparison is silent exactly on descriptions that match
  (`diff_eq_nil_iff_matches`): nothing is missed and nothing is invented.
* A description compared with itself is *not* always silent.  It is exactly if no endpoint has
  two parameters of one slot and responses of one status agree (`diff_self_eq_nil_iff`).

## Narrowed schemas

A schema that is narrowed is reported once more at every endpoint that reaches it.  Where the
schemas match none is narrowed, so this pass adds nothing to a silent comparison.
-/

namespace ApiCanon

/-- The slots and the statuses of every endpoint are distinct. -/
def Ast.Keyed (a : Ast) : Prop := ∀ e ∈ a.endpoints, e.Keyed

/-- Agreement of two descriptions in all that a comparison is about. -/
structure Ast.Matches (old new : Ast) : Prop where
  keys : ∀ k, k ∈ old.endpoints.map Endpoint.key ↔ k ∈ new.endpoints.map Endpoint.key
  endpoints : ∀ e ∈ old.endpoints, ∀ f ∈ new.endpoints, e.key = f.key → e.Matches f
  names : ∀ k, k ∈ old.schemas.keys ↔ k ∈ new.schemas.keys
  schemas : ∀ k s t, old.schemas.get? k = some s → new.schemas.get? k = some t → s.Matches t

namespace Diff

/-! ## Changes one by one -/

lemma rollup_eq_none_iff (make : ChangeKind → String → List Difference → Change)
    (ds : List Difference) : rollup make ds = none ↔ ds = [] := by
  unfold rollup
  split
  · next h => simpa using h
  · next h =>
    refine iff_of_false ?_ (by simpa using h)
    dsimp only
    split <;> simp

lemma endpointDifferences_eq_nil_iff (o : DiffOptions) (schemas : SortedMap Schema)
    (narrowed : List String) (old new : Endpoint) :
    endpointDifferences o schemas narrowed old new = [] ↔
      compareEndpoints o old new = [] ∧ ∀ n ∈ reachableSchemas old schemas, n ∉ narrowed := by
  simp [endpointDifferences, List.filter_eq_nil_iff]

lemma endpointChange?_eq_none_iff (o : DiffOptions) {old : Ast} (valid : old.Valid)
    (narrowed : List String) (f : Endpoint) :
    endpointChange? o old narrowed f = none ↔
      ∃ e ∈ old.endpoints, e.key = f.key ∧
        endpointDifferences o old.schemas narrowed e f = [] := by
  unfold endpointChange?
  cases hfind : old.endpoints.find? (fun e => e.key == f.key) with
  | none =>
    have gone : ∀ e ∈ old.endpoints, e.key ≠ f.key := by simpa using hfind
    refine iff_of_false (by simp) ?_
    rintro ⟨e, he, hkey, -⟩
    exact gone e he hkey
  | some e =>
    have he := List.mem_of_find?_eq_some hfind
    have hkey : e.key = f.key := by simpa using List.find?_some hfind
    simp only [rollup_eq_none_iff]
    constructor
    · intro silent
      exact ⟨e, he, hkey, silent⟩
    · rintro ⟨e', he', hkey', silent⟩
      obtain rfl : e' = e := List.inj_on_of_nodup_map valid.keys he' he (hkey'.trans hkey.symm)
      exact silent

lemma removal?_eq_none_iff (new : Ast) (e : Endpoint) :
    removal? new e = none ↔ e.key ∈ new.endpoints.map Endpoint.key := by
  by_cases h : new.endpoints.any (fun p => p.key == e.key) = true
  · refine iff_of_true (by simp [removal?, h]) ?_
    obtain ⟨p, hp, hkey⟩ := List.any_eq_true.1 h
    exact List.mem_map.2 ⟨p, hp, by simpa using hkey⟩
  · refine iff_of_false (by simp [removal?, h]) fun hmem => h ?_
    obtain ⟨p, hp, hkey⟩ := List.mem_map.1 hmem
    exact List.any_eq_true.2 ⟨p, hp, by simpa using hkey⟩

lemma schemaChange?_eq_none_iff (o : DiffOptions) (old new : SortedMap Schema) (name : String) :
    schemaChange? o old new name = none ↔
      (name ∈ old.keys ↔ name ∈ new.keys) ∧
        ∀ s t, old.get? name = some s → new.get? name = some t → compareSchemas o s t = [] := by
  simp only [schemaChange?, SortedMap.mem_keys_iff]
  cases old.get? name <;> cases new.get? name <;> simp [rollup_eq_none_iff]

lemma schemaChanges_eq_nil_iff (o : DiffOptions) (old new : SortedMap Schema) :
    schemaChanges o old new = [] ↔
      (∀ k, k ∈ old.keys ↔ k ∈ new.keys) ∧
        ∀ k s t, old.get? k = some s → new.get? k = some t → compareSchemas o s t = [] := by
  simp only [schemaChanges, List.filterMap_eq_nil_iff, mem_sortedNames, List.mem_append,
    schemaChange?_eq_none_iff]
  constructor
  · intro h
    refine ⟨fun k => ⟨fun hk => (h k (Or.inl hk)).1.1 hk, fun hk => (h k (Or.inr hk)).1.2 hk⟩, ?_⟩
    intro k s t hs ht
    exact (h k (Or.inl ((SortedMap.mem_keys_iff old k).2 ⟨s, hs⟩))).2 s t hs ht
  · rintro ⟨names, silent⟩ k -
    exact ⟨names k, silent k⟩

/-! ## Silence of a whole comparison -/

/-- A comparison is silent if its endpoints, its removals and its schemas are. -/
theorem changes_eq_nil_iff (o : DiffOptions) {old : Ast} (valid : old.Valid) (new : Ast) :
    changes o old new = [] ↔
      (∀ f ∈ new.endpoints, ∃ e ∈ old.endpoints, e.key = f.key ∧ compareEndpoints o e f = [] ∧
        ∀ n ∈ reachableSchemas e old.schemas, n ∉ narrowedSchemas old.schemas new.schemas) ∧
      (∀ e ∈ old.endpoints, e.key ∈ new.endpoints.map Endpoint.key) ∧
      (o.includeSchemas = true → schemaChanges o old.schemas new.schemas = []) := by
  simp only [changes, List.append_eq_nil_iff, List.filterMap_eq_nil_iff,
    endpointChange?_eq_none_iff o valid, endpointDifferences_eq_nil_iff, removal?_eq_none_iff,
    and_assoc]
  cases o.includeSchemas <;> simp

/-- Schemas that match are not narrowed. -/
lemma narrowedSchemas_eq_nil {old new : SortedMap Schema}
    (agree : ∀ k s t, old.get? k = some s → new.get? k = some t → s.Matches t) :
    narrowedSchemas old new = [] := by
  refine List.eq_nil_iff_forall_not_mem.2 fun name h => ?_
  obtain ⟨s, t, hs, ht, breaks⟩ := (mem_narrowedSchemas_iff old new name).1 h
  have silent := (compareSchemas_eq_nil_iff (o := .default) rfl s t).2 (agree name s t hs ht)
  have breaking := (hasBreaking_compareSchemas_iff .default s t).2 breaks
  rw [silent] at breaking
  exact hasBreaking_nil breaking

lemma narrowedSchemas_self (m : SortedMap Schema) : narrowedSchemas m m = [] := by
  refine narrowedSchemas_eq_nil fun k s t hs ht => ?_
  obtain rfl : s = t := Option.some.inj (hs.symm.trans ht)
  exact ⟨rfl, rfl, fun _ => Iff.rfl⟩

lemma schemaChanges_self (o : DiffOptions) (m : SortedMap Schema) : schemaChanges o m m = [] := by
  refine (schemaChanges_eq_nil_iff o m m).2 ⟨fun _ => Iff.rfl, fun k s t hs ht => ?_⟩
  obtain rfl : s = t := Option.some.inj (hs.symm.trans ht)
  exact compareSchemas_self o s

/-- **A comparison misses nothing and invents nothing.**  With the default options, and where the
parameters and the responses of each endpoint can be told apart, it is silent exactly on
descriptions that match. -/
theorem diff_eq_nil_iff_matches {old new : Ast} (validOld : fault? .old old = none)
    (validNew : fault? .new new = none) (keyedOld : old.Keyed) (keyedNew : new.Keyed)
    (docsOld : old.Distinct) (docsNew : new.Distinct) :
    diff .default old new = .ok ⟨[]⟩ ↔ old.Matches new := by
  have hold := (fault?_eq_none_iff .old old).1 validOld
  have hnew := (fault?_eq_none_iff .new new).1 validNew
  have endpoint : ∀ e ∈ old.endpoints, ∀ f ∈ new.endpoints,
      compareEndpoints .default e f = [] ↔ e.Matches f := fun e he f hf =>
    compareEndpoints_eq_nil_iff (keyedOld e he) (keyedNew f hf) (docsOld e he) (docsNew f hf)
  have schema : ∀ s t, compareSchemas .default s t = [] ↔ s.Matches t :=
    compareSchemas_eq_nil_iff rfl
  rw [diff_of_valid .default hold hnew, Except.ok.injEq, DiffResult.mk.injEq,
    changes_eq_nil_iff .default hold, schemaChanges_eq_nil_iff]
  constructor
  · rintro ⟨known, kept, schemas⟩
    obtain ⟨names, silent⟩ := schemas rfl
    refine ⟨fun k => ⟨fun hk => ?_, fun hk => ?_⟩, fun e he f hf hkey => ?_, names,
      fun k s t hs ht => (schema s t).1 (silent k s t hs ht)⟩
    · obtain ⟨e, he, rfl⟩ := List.mem_map.1 hk
      exact kept e he
    · obtain ⟨f, hf, rfl⟩ := List.mem_map.1 hk
      obtain ⟨e, he, hkey, -⟩ := known f hf
      exact List.mem_map.2 ⟨e, he, hkey⟩
    · obtain ⟨e', he', hkey', silent', -⟩ := known f hf
      obtain rfl : e' = e := List.inj_on_of_nodup_map hold.keys he' he (hkey'.trans hkey.symm)
      exact (endpoint e' he f hf).1 silent'
  · rintro ⟨keys, endpoints, names, schemas⟩
    refine ⟨fun f hf => ?_, fun e he => (keys _).1 (List.mem_map.2 ⟨e, he, rfl⟩), fun _ =>
      ⟨names, fun k s t hs ht => (schema s t).2 (schemas k s t hs ht)⟩⟩
    obtain ⟨e, he, hkey⟩ := List.mem_map.1 ((keys f.key).2 (List.mem_map.2 ⟨f, hf, rfl⟩))
    refine ⟨e, he, hkey, (endpoint e he f hf).2 (endpoints e he f hf hkey), fun n _ => ?_⟩
    simp [narrowedSchemas_eq_nil schemas]

/-- A description with a single endpoint. -/
def catalogue (parameters : List Parameter) (responses : List Response) : Ast where
  endpoints := [{ Endpoint.plain .get "/items" with
    parameters := parameters
    responses := responses }]
  schemas := .empty
  metadata := (Draft.start "openapi").ast.metadata
  unresolved := false

/-- A response with an object of truth values for an example. -/
def flagged (status : String) (flags : List (String × Bool)) : Response :=
  { Response.plain status with example? := some (.object (flags.map fun f => (f.1, .bool f.2))) }

lemma keyed_catalogue {ps : List Parameter} {rs : List Response}
    (slots : (ps.map Parameter.slot).Nodup) (statuses : (rs.map Response.status).Nodup) :
    (catalogue ps rs).Keyed := by
  intro e he
  obtain rfl := List.mem_singleton.1 he
  exact ⟨slots, statuses⟩

lemma distinct_catalogue {ps : List Parameter} {rs : List Response}
    (docs : ∀ r ∈ rs, r.Distinct) : (catalogue ps rs).Distinct := by
  intro e he
  obtain rfl := List.mem_singleton.1 he
  exact docs

lemma distinct_flagged (status : String) {flags : List (String × Bool)}
    (names : (flags.map (·.1)).Nodup) : (flagged status flags).Distinct := by
  intro v hv
  obtain rfl := Option.some.inj hv
  refine .object (by simpa [Function.comp_def] using names) fun p hp => ?_
  obtain ⟨f, -, rfl⟩ := List.mem_map.1 hp
  exact .bool f.2

/-- The order of parameters, of responses and of the fields of an example does not count. -/
theorem diff_eq_nil_iff_matches_catalogue :
    diff .default
      (catalogue [.plain "q" .query .any, .plain "q" .header .any]
        [flagged "200" [("new", true), ("sold", false)], flagged "404" []])
      (catalogue [.plain "q" .header .any, .plain "q" .query .any]
        [flagged "404" [], flagged "200" [("sold", false), ("new", true)]]) = .ok ⟨[]⟩ := by
  have docs : ∀ flags : List (String × Bool), (flags.map (·.1)).Nodup →
      ∀ r ∈ [flagged "200" flags, flagged "404" []], r.Distinct := by
    intro flags names r hr
    rcases List.mem_pair.1 hr with rfl | rfl
    · exact distinct_flagged "200" names
    · exact distinct_flagged "404" List.nodup_nil
  have docsOld := docs [("new", true), ("sold", false)] (by decide)
  have docsNew := docs [("sold", false), ("new", true)] (by decide)
  refine (diff_eq_nil_iff_matches (by decide) (by decide)
    (keyed_catalogue (by decide) (by decide)) (keyed_catalogue (by decide) (by decide))
    (distinct_catalogue docsOld)
    (distinct_catalogue fun r hr => docsNew r ((List.Perm.swap _ _ _).mem_iff.1 hr))).2 ?_
  refine ⟨fun k => Iff.rfl, fun e he f hf _ => ?_, fun k => Iff.rfl, fun k s t hs => ?_⟩
  · obtain rfl := List.mem_singleton.1 he
    obtain rfl := List.mem_singleton.1 hf
    refine ⟨rfl, rfl, rfl, rfl, rfl, rfl, List.Perm.swap _ _ _, ?_⟩
    refine ⟨_, List.Perm.swap _ _ _, .cons ⟨rfl, rfl, ?_, fun _ => rfl⟩ (.cons
      ⟨rfl, rfl, ?_, fun _ => rfl⟩ .nil)⟩
    · exact Json.Value.alike_refl _
    · exact (sameExample_iff (docsOld _ (by simp)) (docsNew _ (by simp))).1 (by decide)
  · cases hs

/-- **A description compared with itself** is silent exactly if its endpoints tell their parameters
apart and their responses of one status agree, whatever the options. -/
theorem diff_self_eq_nil_iff (o : DiffOptions) {a : Ast} (valid : fault? .old a = none)
    (docs : a.Distinct) :
    diff o a a = .ok ⟨[]⟩ ↔ ∀ e ∈ a.endpoints, (e.parameters.map Parameter.slot).Nodup ∧
      ∀ r ∈ e.responses, ∀ s ∈ e.responses, r.status = s.status → r.Alike o s := by
  have hvalid := (fault?_eq_none_iff .old a).1 valid
  rw [diff_of_valid o hvalid hvalid, Except.ok.injEq, DiffResult.mk.injEq,
    changes_eq_nil_iff o hvalid]
  simp only [narrowedSchemas_self, schemaChanges_self, List.not_mem_nil, not_false_eq_true,
    implies_true, and_true]
  have endpoint : ∀ e ∈ a.endpoints, compareEndpoints o e e = [] ↔
      (e.parameters.map Parameter.slot).Nodup ∧
        ∀ r ∈ e.responses, ∀ s ∈ e.responses, r.status = s.status → r.Alike o s := fun e he => by
    rw [compareEndpoints_self_eq_nil_iff, compareParameters_self_eq_nil_iff,
      compareResponses_self_eq_nil_iff o (docs e he)]
  constructor
  · rintro ⟨known, -⟩ e he
    obtain ⟨e', he', hkey, silent⟩ := known e he
    obtain rfl : e' = e := List.inj_on_of_nodup_map hvalid.keys he' he hkey
    exact (endpoint e' he).1 silent
  · intro h
    refine ⟨fun e he => ⟨e, he, rfl, (endpoint e he).2 (h e he)⟩, fun e he => ?_⟩
    exact List.mem_map.2 ⟨e, he, rfl⟩

/-- Two responses of one status do not count as a change if their examples are alike. -/
theorem diff_self_eq_nil_iff_catalogue :
    diff .default (catalogue [] [flagged "200" [("new", true), ("sold", false)],
        flagged "200" [("sold", false), ("new", true)]])
      (catalogue [] [flagged "200" [("new", true), ("sold", false)],
        flagged "200" [("sold", false), ("new", true)]]) = .ok ⟨[]⟩ := by
  have docs : ∀ r ∈ [flagged "200" [("new", true), ("sold", false)],
      flagged "200" [("sold", false), ("new", true)]], r.Distinct := by
    intro r hr
    rcases List.mem_pair.1 hr with rfl | rfl <;> exact distinct_flagged "200" (by decide)
  refine (diff_self_eq_nil_iff .default (by decide) (distinct_catalogue docs)).2 fun e he => ?_
  obtain rfl := List.mem_singleton.1 he
  refine ⟨List.nodup_nil, fun r hr s hs _ => ?_⟩
  have same : sameExample r.example? s.example? = true ∧ r.status = s.status ∧
      r.schema = s.schema ∧ r.description = s.description := by
    rcases List.mem_pair.1 hr with rfl | rfl <;> rcases List.mem_pair.1 hs with rfl | rfl <;> decide
  obtain ⟨examples, status, schema, description⟩ := same
  exact ⟨status, schema, (sameExample_iff (docs r hr) (docs s hs)).1 examples, fun _ => description⟩

/-- A description with a parameter twice passes the check and differs from itself. -/
theorem diff_self_ne_nil_of_twice :
    fault? .old (catalogue [.plain "q" .query .any, .plain "q" .query .any] []) = none ∧
      diff .default (catalogue [.plain "q" .query .any, .plain "q" .query .any] [])
        (catalogue [.plain "q" .query .any, .plain "q" .query .any] []) ≠ .ok ⟨[]⟩ := by
  have passes :
      fault? .old (catalogue [.plain "q" .query .any, .plain "q" .query .any] []) = none := by
    decide
  refine ⟨passes, fun h => ?_⟩
  have valid := (fault?_eq_none_iff .old _).1 passes
  rw [diff_of_valid .default valid valid, Except.ok.injEq, DiffResult.mk.injEq,
    changes_eq_nil_iff .default valid] at h
  obtain ⟨e, he, -, silent, -⟩ := h.1 _ List.mem_cons_self
  obtain rfl := List.mem_singleton.1 he
  exact absurd silent (by decide)

end Diff

end ApiCanon
