import ApiCanon.Proofs.Diff.Changes
import ApiCanon.Proofs.Diff.Reach

/-!
# Narrowed schemas

When an endpoint breaks although its own comparison does not: because a schema that it reaches
accepts less than before.  The change of an endpoint that is in both descriptions is breaking
exactly if its comparison breaks or a chain of references, from its old form on, ends at a schema
of both descriptions whose comparison breaks (`endpoint_breaks_iff`).

Such a schema is mentioned once in the change.  To tell a mention from the other differences, each
comparison is shown to speak of its own field only (`Speaks`), in messages that are not empty.
-/

namespace ApiCanon.Diff

open Difference (breakingIn harmlessIn)

/-! ## Fields of differences -/

/-- All differences of a list are about some fields, and each of them says something. -/
def Speaks (fields : List String) (ds : List Difference) : Prop :=
  ∀ d ∈ ds, d.field ∈ fields ∧ d.message ≠ ""

variable {fields : List String}

@[simp] lemma speaks_nil : Speaks fields [] := nofun

@[simp] lemma speaks_singleton (d : Difference) :
    Speaks fields [d] ↔ d.field ∈ fields ∧ d.message ≠ "" := by
  simp [Speaks]

@[simp] lemma speaks_append (ds es : List Difference) :
    Speaks fields (ds ++ es) ↔ Speaks fields ds ∧ Speaks fields es :=
  List.forall_mem_append

lemma speaks_reportIf (c : Bool) {d : Difference} (h : d.field ∈ fields) (text : d.message ≠ "") :
    Speaks fields (reportIf c d) := by
  cases c <;> simp [reportIf, h, text]

lemma speaks_flatMap {α : Type} {l : List α} {f : α → List Difference}
    (h : ∀ a ∈ l, Speaks fields (f a)) : Speaks fields (l.flatMap f) := by
  intro d hd
  obtain ⟨a, ha, hd⟩ := List.mem_flatMap.1 hd
  exact h a ha d hd

lemma speaks_map {α : Type} {l : List α} {f : α → Difference}
    (h : ∀ a ∈ l, (f a).field ∈ fields ∧ (f a).message ≠ "") : Speaks fields (l.map f) :=
  List.forall_mem_map.2 h

lemma Speaks.mono {more : List String} {ds : List Difference} (h : Speaks fields ds)
    (sub : fields ⊆ more) : Speaks more ds :=
  fun d hd => (h d hd).imp_left fun about => sub about

lemma compareParameter_speaks (o : DiffOptions) (p q : Parameter) :
    Speaks ["parameter"] (compareParameter o p q) := by
  simp [compareParameter, speaks_reportIf, breakingIn, harmlessIn, toString]

lemma compareParameters_speaks (o : DiffOptions) (old new : List Parameter) :
    Speaks ["parameter"] (compareParameters o old new) := by
  refine (speaks_append _ _).2 ⟨speaks_flatMap ?_, speaks_map ?_⟩
  · rintro ⟨p, place⟩ -
    cases place with
    | none => simp [compareOldParameter, breakingIn, toString]
    | some i =>
      cases h : new[i]? with
      | none => simp [compareOldParameter, h]
      | some q => simpa [compareOldParameter, h] using compareParameter_speaks o p q
  · intro p _
    cases h : p.required <;> simp [addedParameter, h, breakingIn, harmlessIn, toString]

lemma compareRequestBody_speaks (o : DiffOptions) (old new : Option RequestBody) :
    Speaks ["requestBody"] (compareRequestBody o old new) := by
  cases old with
  | none =>
    cases new with
    | none => simp [compareRequestBody]
    | some b =>
      cases h : b.required <;> simp [compareRequestBody, h, breakingIn, harmlessIn, toString]
  | some a =>
    cases new with
    | none => simp [compareRequestBody, harmlessIn]
    | some b =>
      simp [compareRequestBody, compareBodies, speaks_reportIf, breakingIn, harmlessIn, toString]

lemma compareResponse_speaks (o : DiffOptions) (r s : Response) :
    Speaks ["response"] (compareResponse o r s) := by
  have types : Speaks ["response"] (compareResponseTypes r.status r.schema s.schema) := by
    cases r.schema <;> cases s.schema <;>
      simp [compareResponseTypes, speaks_reportIf, breakingIn, harmlessIn, toString]
  simp [compareResponse, types, speaks_reportIf, harmlessIn, toString]

lemma compareResponses_speaks (o : DiffOptions) (old new : List Response) :
    Speaks ["response"] (compareResponses o old new) := by
  refine (speaks_append _ _).2 ⟨speaks_flatMap ?_, speaks_map ?_⟩
  · intro r _
    cases h : new.find? (fun n => n.status == r.status) with
    | none => simp [compareOldResponse, h, breakingIn, toString]
    | some s => simpa [compareOldResponse, h] using compareResponse_speaks o r s
  · simp [harmlessIn, toString]

/-- The fields that a comparison of endpoints is about. -/
def endpointFields : List String :=
  ["summary", "description", "operationId", "parameter", "requestBody", "response", "tags",
    "deprecated"]

theorem compareEndpoints_speaks (o : DiffOptions) (old new : Endpoint) :
    Speaks endpointFields (compareEndpoints o old new) := by
  have parameters : Speaks endpointFields (compareParameters o old.parameters new.parameters) :=
    (compareParameters_speaks o _ _).mono (by decide)
  have body : Speaks endpointFields (compareRequestBody o old.requestBody new.requestBody) :=
    (compareRequestBody_speaks o _ _).mono (by decide)
  have responses : Speaks endpointFields (compareResponses o old.responses new.responses) :=
    (compareResponses_speaks o _ _).mono (by decide)
  have mark : (if new.deprecated then "endpoint marked deprecated"
      else "endpoint no longer deprecated") ≠ "" := by
    cases new.deprecated <;> simp
  simp only [compareEndpoints, speaks_append, parameters, body, responses, and_true]
  refine ⟨⟨⟨⟨?_, ?_⟩, ?_⟩, ?_⟩, speaks_reportIf _ (by simp [endpointFields, harmlessIn]) mark⟩ <;>
    exact speaks_reportIf _ (by simp [endpointFields, harmlessIn]) (by simp [harmlessIn])

/-- The fields that a comparison of schemas is about. -/
def schemaFields : List String := ["description", "property", "enum"]

theorem compareSchemas_speaks (o : DiffOptions) (old new : Schema) :
    Speaks schemaFields (compareSchemas o old new) := by
  simp only [compareSchemas, speaks_append]
  refine ⟨⟨⟨⟨speaks_reportIf _ ?_ ?_, speaks_flatMap ?properties⟩, speaks_map ?added⟩,
    speaks_map ?_⟩, speaks_map ?_⟩
  case properties =>
    rintro ⟨k, p⟩ -
    cases h : new.properties.get? k with
    | none => simp [compareOldProperty, h, schemaFields, breakingIn, toString]
    | some q =>
      simp [compareOldProperty, h, compareProperty, speaks_reportIf, schemaFields, breakingIn,
        harmlessIn, toString]
  case added =>
    rintro ⟨k, p⟩ -
    cases h : p.required <;> simp [addedProperty, h, schemaFields, breakingIn, harmlessIn, toString]
  · simp [schemaFields, harmlessIn]
  · simp [harmlessIn]
  · simp [schemaFields, breakingIn, toString]
  · simp [schemaFields, harmlessIn, toString]

/-! ## Narrowed schemas in a change -/

/-- A schema of both descriptions accepts less than before: its comparison breaks. -/
def Narrows (o : DiffOptions) (old new : SortedMap Schema) (n : String) : Prop :=
  ∃ s t, old.get? n = some s ∧ new.get? n = some t ∧ HasBreaking (compareSchemas o s t)

/-- Descriptions of schemas do not count for narrowing, and neither do the options. -/
lemma mem_narrowedSchemas_iff_narrows (o : DiffOptions) (old new : SortedMap Schema)
    (n : String) : n ∈ narrowedSchemas old new ↔ Narrows o old new n := by
  simp only [mem_narrowedSchemas_iff, Narrows, hasBreaking_compareSchemas_iff]

/-- The narrowed schemas that a change of an endpoint mentions, in order. -/
def mentioned (old new : SortedMap Schema) (e : Endpoint) : List String :=
  (reachableSchemas e old).filter (narrowedSchemas old new).contains

lemma mem_mentioned_iff (o : DiffOptions) (old new : SortedMap Schema) (e : Endpoint)
    (n : String) : n ∈ mentioned old new e ↔ Reaches old e n ∧ Narrows o old new n := by
  simp [mentioned, mem_reachableSchemas_iff, mem_narrowedSchemas_iff_narrows o]

lemma nodup_mentioned (old new : SortedMap Schema) (e : Endpoint) :
    (mentioned old new e).Nodup :=
  (nodup_sortedNames _).filter _

lemma endpointDifferences_eq (o : DiffOptions) (old new : SortedMap Schema) (e f : Endpoint) :
    endpointDifferences o old (narrowedSchemas old new) e f =
      compareEndpoints o e f ++ (mentioned old new e).map narrowedDifference := rfl

/-- An endpoint breaks by itself or by a schema that it reaches. -/
lemma hasBreaking_endpointDifferences_iff (o : DiffOptions) (old new : SortedMap Schema)
    (e f : Endpoint) :
    HasBreaking (endpointDifferences o old (narrowedSchemas old new) e f) ↔
      HasBreaking (compareEndpoints o e f) ∨ ∃ n, Reaches old e n ∧ Narrows o old new n := by
  have mentions : HasBreaking ((mentioned old new e).map narrowedDifference) ↔
      ∃ n, Reaches old e n ∧ Narrows o old new n := by
    simp [hasBreaking_map, narrowedDifference, mem_mentioned_iff o]
  rw [endpointDifferences_eq, hasBreaking_append, mentions]

/-- Only mentions of schemas are about a schema. -/
lemma filter_schema_endpointDifferences (o : DiffOptions) (old new : SortedMap Schema)
    (e f : Endpoint) :
    (endpointDifferences o old (narrowedSchemas old new) e f).filter (·.field == "schema") =
      (mentioned old new e).map narrowedDifference := by
  have own : (compareEndpoints o e f).filter (·.field == "schema") = [] := by
    refine List.filter_eq_nil_iff.2 fun d hd about => ?_
    have field := (compareEndpoints_speaks o e f d hd).1
    rw [eq_of_beq about] at field
    exact absurd field (by decide)
  have others : ((mentioned old new e).map narrowedDifference).filter (·.field == "schema") =
      (mentioned old new e).map narrowedDifference := by
    exact List.filter_eq_self.2 (List.forall_mem_map.2 fun _ _ => rfl)
  rw [endpointDifferences_eq, List.filter_append, own, others, List.nil_append]

/-! ## The change of an endpoint of both descriptions -/

/-- In a comparison the key of an endpoint leads back to its change. -/
lemma mem_changes_iff_of_shared (o : DiffOptions) {old new : Ast} (validOld : old.Valid)
    (validNew : new.Valid) {e f : Endpoint} (he : e ∈ old.endpoints) (hf : f ∈ new.endpoints)
    (key : e.key = f.key) (c : Change) :
    (c ∈ changes o old new ∧ c.key? = some f.key) ↔
      endpointRollup f (endpointDifferences o old.schemas
        (narrowedSchemas old.schemas new.schemas) e f) = some c := by
  rw [← endpointChange?_of_shared o validOld _ he key]
  constructor
  · rintro ⟨hc, about⟩
    rcases List.mem_append.1 hc with hc | hc
    · rcases List.mem_append.1 hc with hc | hc
      · obtain ⟨g, hg, made⟩ := List.mem_filterMap.1 hc
        have same : g.key = f.key :=
          Option.some.inj ((endpointChange?_eq_some validOld made).1.symm.trans about)
        rwa [List.inj_on_of_nodup_map validNew.keys hg hf same] at made
      · -- an endpoint that is gone has another key
        obtain ⟨g, -, made⟩ := List.mem_filterMap.1 hc
        have same : g.key = f.key :=
          Option.some.inj ((removal?_eq_some made).1.symm.trans about)
        have silent : removal? new g = none :=
          (removal?_eq_none_iff new g).2 (same ▸ List.mem_map_of_mem hf)
        rw [silent] at made
        cases made
    · -- a schema has none
      split at hc
      · obtain ⟨n, -, made⟩ := List.mem_filterMap.1 hc
        simp [Change.key?, (schemaChange?_eq_some made).1] at about
      · cases hc
  · intro made
    refine ⟨List.mem_append_left _ (List.mem_append_left _ ?_),
      (endpointChange?_eq_some validOld made).1⟩
    exact List.mem_filterMap.2 ⟨f, hf, made⟩

/-- **Narrowing reaches exactly the endpoints that use a schema.**  Whatever the options, the change
of an endpoint of both descriptions breaks if and only if the comparison of the endpoint does, or a
chain of references from its old form ends at a schema of both descriptions whose comparison does.
The change mentions each such schema once, and the search for them comes to an end. -/
theorem endpoint_breaks_iff (o : DiffOptions) {old new : Ast} (validOld : fault? .old old = none)
    (validNew : fault? .new new = none) {e f : Endpoint} (he : e ∈ old.endpoints)
    (hf : f ∈ new.endpoints) (key : e.key = f.key) :
    ∃ r, diff o old new = .ok r ∧
      ((∃ c ∈ r.changes, c.key? = some f.key ∧ c.kind = .breaking) ↔
        HasBreaking (compareEndpoints o e f) ∨
          ∃ n, Reaches old.schemas e n ∧ Narrows o old.schemas new.schemas n) ∧
      (∀ c ∈ r.changes, c.key? = some f.key → ∃ (ds : List Difference) (names : List String),
        c.differences = some ds ∧
        ds.filter (·.field == "schema") = names.map narrowedDifference ∧ names.Nodup ∧
        ∀ n, n ∈ names ↔ Reaches old.schemas e n ∧ Narrows o old.schemas new.schemas n) ∧
      ∃ seen, (Walk.step old.schemas)^[(Walk.start e).bound old.schemas] (Walk.start e) =
          ⟨seen, []⟩ ∧ ∀ n, n ∈ seen ↔ Reaches old.schemas e n := by
  have hold := (fault?_eq_none_iff .old old).1 validOld
  have hnew := (fault?_eq_none_iff .new new).1 validNew
  have shared := mem_changes_iff_of_shared o hold hnew he hf key
  refine ⟨_, diff_of_valid o hold hnew, ?_, fun c hc about => ?_, _,
    Walk.iterate_step old.schemas [] e.referencedNames, fun n => ?_⟩
  · rw [← hasBreaking_endpointDifferences_iff]
    constructor
    · rintro ⟨c, hc, about, kind⟩
      obtain ⟨-, rolled⟩ := endpointRollup_eq_some ((shared c).1 ⟨hc, about⟩)
      exact rolled.kind_eq_breaking_iff.1 kind
    · intro breaks
      obtain ⟨c, made⟩ := exists_rollup
        (fun kind text ds => ⟨kind, f.path, some f.method, text, some ds⟩) breaks.ne_nil
      obtain ⟨hc, about⟩ := (shared c).2 made
      exact ⟨c, hc, about, (endpointRollup_eq_some made).2.kind_eq_breaking_iff.2 breaks⟩
  · obtain ⟨-, rolled⟩ := endpointRollup_eq_some ((shared c).1 ⟨hc, about⟩)
    exact ⟨_, mentioned old.schemas new.schemas e, rolled.record,
      filter_schema_endpointDifferences o _ _ e f, nodup_mentioned _ _ e,
      mem_mentioned_iff o _ _ e⟩
  · exact (mem_sortedNames _ n).symm.trans (mem_reachableSchemas_iff e old.schemas n)

/-- A shelf of books: an endpoint that lists them, and schemas that refer to each other in a circle
and to a schema that is missing.  The name of an author may be required or not. -/
def bookshelf (named : Bool) : Ast where
  endpoints := [{ Endpoint.plain .get "/books" with
    responses := [{ Response.plain "200" with schema := some (.array (.named "Book")) }] }]
  schemas := .ofList [
    ("Author", { Schema.named "Author" with
      properties := .ofList [("books", .plain (.array (.named "Book")) false),
        ("name", .plain (.primitive "string") named)] }),
    ("Book", { Schema.named "Book" with
      properties := .ofList [("author", .plain (.named "Author") true),
        ("review", .plain (.named "Review") false)] })]
  metadata := (Draft.start "openapi").ast.metadata
  unresolved := true

/-- The author is reached through the books, so that a name that has become required breaks the
endpoint, although no schema is compared for itself. -/
theorem endpoint_breaks_iff_bookshelf :
    ∃ r, diff ⟨true, false⟩ (bookshelf false) (bookshelf true) = .ok r ∧
      ∃ c ∈ r.changes, c.key? = some ⟨.get, "/books"⟩ ∧ c.kind = .breaking := by
  have passesOld : fault? .old (bookshelf false) = none := by decide
  have passesNew : fault? .new (bookshelf true) = none := by decide
  obtain ⟨r, compared, breaks, -⟩ := endpoint_breaks_iff ⟨true, false⟩ passesOld passesNew
    List.mem_cons_self List.mem_cons_self rfl
  refine ⟨r, compared, breaks.2 (Or.inr ⟨"Author", ⟨"Book", ?_, ?_⟩, _, _, rfl, rfl, ?_⟩)⟩
  · exact .response _ List.mem_cons_self _ rfl (.items (.named "Book"))
  · exact .single ⟨_, rfl, "author", _, rfl, .named "Author"⟩
  · exact List.any_eq_true.1 (by decide)

end ApiCanon.Diff
