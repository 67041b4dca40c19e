import ApiCanon.Proofs.Collection.KeyedList
import ApiCanon.Proofs.Diff.Parameters
import ApiCanon.Proofs.Model.Documents

/-!
# Verdicts on endpoints

When a comparison of two endpoints is silent and when it breaks, said by what the endpoints hold
and not by how they are searched.  `Endpoint.Matches` is agreement in everything but the order of
parameters and responses and the enhanced description; `EndpointBreaks` lists what can make a
client fail.  Both presume that no endpoint has two parameters of one slot or two responses of
one status.

## Policy

A body that is gone breaks nothing, and neither does a type that a response did not have before.
-/

namespace ApiCanon

open Json (Value)

/-- Examples that are both absent, or alike as documents. -/
def ExamplesAlike : Option Value → Option Value → Prop
  | some v, some w => v.Alike w
  | none, none => True
  | _, _ => False

/-- Equality of responses as far as the options look, with examples compared as documents. -/
structure Response.Alike (o : DiffOptions) (r s : Response) : Prop where
  status : r.status = s.status
  schema : r.schema = s.schema
  examples : ExamplesAlike r.example? s.example?
  description : o.ignoreDescriptions = false → r.description = s.description

/-- Agreement of two endpoints in all that a comparison is about: the order of parameters and of
responses does not count. -/
structure Endpoint.Matches (old new : Endpoint) : Prop where
  summary : old.summary = new.summary
  description : old.description = new.description
  operationId : old.operationId = new.operationId
  tags : old.tags = new.tags
  deprecated : old.deprecated = new.deprecated
  requestBody : old.requestBody = new.requestBody
  parameters : old.parameters.Perm new.parameters
  responses : SameUpToOrder (Response.Alike .default) old.responses new.responses

/-- The slots and the statuses of an endpoint are distinct. -/
structure Endpoint.Keyed (e : Endpoint) : Prop where
  slots : (e.parameters.map Parameter.slot).Nodup
  statuses : (e.responses.map Response.status).Nodup

lemma ExamplesAlike.symm {v w : Option Value} (h : ExamplesAlike v w) : ExamplesAlike w v := by
  cases v <;> cases w <;> simp only [ExamplesAlike] at h ⊢
  exact h.symm

lemma ExamplesAlike.trans {u v w : Option Value} (h : ExamplesAlike u v)
    (h' : ExamplesAlike v w) : ExamplesAlike u w := by
  cases u <;> cases v <;> cases w <;> simp only [ExamplesAlike] at h h' ⊢
  exact Value.Alike.trans h h'

namespace Response.Alike

variable {o : DiffOptions} {r s t : Response}

lemma symm (h : r.Alike o s) : s.Alike o r :=
  ⟨h.status.symm, h.schema.symm, h.examples.symm, fun full => (h.description full).symm⟩

lemma trans (h : r.Alike o s) (h' : s.Alike o t) : r.Alike o t :=
  ⟨h.status.trans h'.status, h.schema.trans h'.schema, h.examples.trans h'.examples,
    fun full => (h.description full).trans (h'.description full)⟩

end Response.Alike

namespace Diff

/-! ## Bodies -/

/-- A change of the body that can make a client fail. -/
inductive BodyBreaks : Option RequestBody → Option RequestBody → Prop where
  | demanded (b : RequestBody) (required : b.required = true) : BodyBreaks none (some b)
  | nowRequired (a b : RequestBody) (was : a.required = false) (is : b.required = true) :
      BodyBreaks (some a) (some b)
  | retyped (a b : RequestBody) (type : a.schema ≠ b.schema) : BodyBreaks (some a) (some b)
  | recoded (a b : RequestBody) (media : a.contentType ≠ b.contentType) :
      BodyBreaks (some a) (some b)

lemma hasBreaking_compareBodies_iff (o : DiffOptions) (a b : RequestBody) :
    HasBreaking (compareBodies o a b) ↔ (a.required = false ∧ b.required = true) ∨
      a.schema ≠ b.schema ∨ a.contentType ≠ b.contentType := by
  simp [compareBodies]

theorem hasBreaking_compareRequestBody_iff (o : DiffOptions) (old new : Option RequestBody) :
    HasBreaking (compareRequestBody o old new) ↔ BodyBreaks old new := by
  cases old with
  | none =>
    cases new with
    | none => exact iff_of_false (by simp [compareRequestBody]) (by rintro ⟨⟩)
    | some b =>
      constructor
      · intro h
        refine .demanded b ?_
        by_contra hb
        simp [compareRequestBody, hb] at h
      · rintro ⟨_, required⟩
        simp [compareRequestBody, required]
  | some a =>
    cases new with
    | none => exact iff_of_false (by simp [compareRequestBody]) (by rintro ⟨⟩)
    | some b =>
      rw [compareRequestBody, hasBreaking_compareBodies_iff]
      constructor
      · rintro (⟨was, is⟩ | type | media)
        · exact .nowRequired a b was is
        · exact .retyped a b type
        · exact .recoded a b media
      · rintro (_ | ⟨_, _, was, is⟩ | ⟨_, _, type⟩ | ⟨_, _, media⟩)
        · exact Or.inl ⟨was, is⟩
        · exact Or.inr (Or.inl type)
        · exact Or.inr (Or.inr media)

lemma compareBodies_eq_nil_iff {o : DiffOptions} (full : o.ignoreDescriptions = false)
    (a b : RequestBody) : compareBodies o a b = [] ↔ a = b := by
  obtain ⟨media, description, required, schema⟩ := a
  obtain ⟨media', description', required', schema'⟩ := b
  simp only [compareBodies, List.append_eq_nil_iff, reportIf_eq_nil_iff, full]
  cases required <;> cases required' <;> simp <;> tauto

lemma compareRequestBody_eq_nil_iff {o : DiffOptions} (full : o.ignoreDescriptions = false)
    (old new : Option RequestBody) : compareRequestBody o old new = [] ↔ old = new := by
  cases old with
  | none =>
    cases new with
    | none => simp [compareRequestBody]
    | some b => cases h : b.required <;> simp [compareRequestBody, h]
  | some a =>
    cases new with
    | none => simp [compareRequestBody]
    | some b => simp [compareRequestBody, compareBodies_eq_nil_iff full]

@[simp] lemma compareRequestBody_self (o : DiffOptions) (b : Option RequestBody) :
    compareRequestBody o b b = [] := by
  cases b with
  | none => rfl
  | some b => simp [compareRequestBody, compareBodies]

/-! ## Responses -/

lemma hasBreaking_compareResponse_iff (o : DiffOptions) (r s : Response) :
    HasBreaking (compareResponse o r s) ↔ ∃ t, r.schema = some t ∧ s.schema ≠ some t := by
  simp only [compareResponse, hasBreaking_append, hasBreaking_reportIf, breaking_harmlessIn,
    Bool.false_eq_true, and_false, or_false]
  cases r.schema with
  | none => cases s.schema <;> simp [compareResponseTypes]
  | some t =>
    cases s.schema with
    | none => simp [compareResponseTypes]
    | some t' => simp [compareResponseTypes, @eq_comm _ t t']

lemma compareResponse_eq_nil_iff (o : DiffOptions) (r s : Response) :
    compareResponse o r s = [] ↔ r.schema = s.schema ∧ sameExample r.example? s.example? = true ∧
      (o.ignoreDescriptions = false → r.description = s.description) := by
  cases hr : r.schema <;> cases hs : s.schema <;> cases ho : o.ignoreDescriptions <;>
    simp [compareResponse, compareResponseTypes, hr, hs, ho]

lemma sameExample_iff {v w : Option Value} (hv : ∀ x ∈ v, x.Distinct) (hw : ∀ x ∈ w, x.Distinct) :
    sameExample v w = true ↔ ExamplesAlike v w := by
  cases v with
  | none => cases w <;> simp [sameExample, ExamplesAlike]
  | some x =>
    cases w with
    | none => simp [sameExample, ExamplesAlike]
    | some y => exact Value.same_iff_alike (hv x rfl) (hw y rfl)

/-- A change of the responses that can make a client fail. -/
inductive ResponsesBreak (old new : List Response) : Prop where
  | gone (r : Response) (mem : r ∈ old) (lost : r.status ∉ new.map Response.status)
  | retyped (r s : Response) (mem : r ∈ old) (mem' : s ∈ new) (status : s.status = r.status)
      (type : TypeRef) (was : r.schema = some type) (is : s.schema ≠ some type)

lemma find?_status_eq_none_iff (new : List Response) (r : Response) :
    new.find? (fun n => n.status == r.status) = none ↔ r.status ∉ new.map Response.status := by
  simp [List.find?_eq_none]

theorem hasBreaking_compareResponses_iff {o : DiffOptions} {old new : List Response}
    (distinct : (new.map Response.status).Nodup) :
    HasBreaking (compareResponses o old new) ↔ ResponsesBreak old new := by
  have harmless : ¬HasBreaking ((new.filter fun r => !old.any fun n => n.status == r.status).map
      fun r => Difference.harmlessIn "response" s!"response {r.status} added") := by
    simp [hasBreaking_map]
  simp only [compareResponses, hasBreaking_append, harmless, or_false, hasBreaking_flatMap]
  constructor
  · rintro ⟨r, hr, breaking⟩
    cases hfind : new.find? (fun n => n.status == r.status) with
    | none => exact .gone r hr ((find?_status_eq_none_iff new r).1 hfind)
    | some s =>
      simp only [compareOldResponse, hfind] at breaking
      obtain ⟨t, was, is⟩ := (hasBreaking_compareResponse_iff o r s).1 breaking
      exact .retyped r s hr (List.mem_of_find?_eq_some hfind)
        (by simpa using List.find?_some hfind) t was is
  · rintro (⟨r, hr, lost⟩ | ⟨r, s, hr, hs, status, t, was, is⟩)
    · refine ⟨r, hr, ?_⟩
      simp [compareOldResponse, (find?_status_eq_none_iff new r).2 lost]
    · refine ⟨r, hr, ?_⟩
      have hfind : new.find? (fun n => n.status == r.status) = some s :=
        status ▸ find?_key_eq_some distinct hs
      simp only [compareOldResponse, hfind]
      exact (hasBreaking_compareResponse_iff o r s).2 ⟨t, was, is⟩

/-- Silence, status by status; of several responses of a status the first one counts. -/
lemma compareResponses_eq_nil_iff (o : DiffOptions) (old new : List Response) :
    compareResponses o old new = [] ↔
      (∀ r ∈ old, ∃ s, new.find? (fun n => n.status == r.status) = some s ∧
        compareResponse o r s = []) ∧
      ∀ s ∈ new, s.status ∈ old.map Response.status := by
  simp only [compareResponses, List.append_eq_nil_iff, List.flatMap_eq_nil_iff, List.map_eq_nil_iff,
    List.filter_eq_nil_iff]
  refine and_congr (forall₂_congr fun r _ => ?_) (forall₂_congr fun s _ => ?_)
  · cases h : new.find? (fun n => n.status == r.status) <;> simp [compareOldResponse, h]
  · simp

lemma alike_of_compareResponse_eq_nil {o : DiffOptions} {r s : Response} (hr : r.Distinct)
    (hs : s.Distinct) (status : r.status = s.status) (h : compareResponse o r s = []) :
    r.Alike o s := by
  obtain ⟨schema, examples, description⟩ := (compareResponse_eq_nil_iff o r s).1 h
  exact ⟨status, schema, (sameExample_iff hr hs).1 examples, description⟩

lemma compareResponse_eq_nil_of_alike {o : DiffOptions} {r s : Response} (hr : r.Distinct)
    (hs : s.Distinct) (h : r.Alike o s) : compareResponse o r s = [] :=
  (compareResponse_eq_nil_iff o r s).2
    ⟨h.schema, (sameExample_iff hr hs).2 h.examples, h.description⟩

/-- Where statuses are distinct, only agreement up to order is silent. -/
theorem compareResponses_eq_nil_iff_sameUpToOrder (o : DiffOptions) {old new : List Response}
    (docsOld : ∀ r ∈ old, r.Distinct) (docsNew : ∀ r ∈ new, r.Distinct)
    (distinctOld : (old.map Response.status).Nodup)
    (distinctNew : (new.map Response.status).Nodup) :
    compareResponses o old new = [] ↔ SameUpToOrder (Response.Alike o) old new := by
  rw [compareResponses_eq_nil_iff,
    sameUpToOrder_iff (fun _ _ h => h.status) distinctOld distinctNew]
  refine and_congr (forall₂_congr fun r hr => ?_) Iff.rfl
  constructor
  · rintro ⟨s, hfind, silent⟩
    have hs := List.mem_of_find?_eq_some hfind
    have status : s.status = r.status := by simpa using List.find?_some hfind
    exact ⟨s, hs, alike_of_compareResponse_eq_nil (docsOld r hr) (docsNew s hs) status.symm silent⟩
  · rintro ⟨s, hs, alike⟩
    refine ⟨s, alike.status ▸ find?_key_eq_some distinctNew hs, ?_⟩
    exact compareResponse_eq_nil_of_alike (docsOld r hr) (docsNew s hs) alike

/-- A list of responses differs from itself exactly if two responses of one status disagree: each
is compared with the first of its status. -/
theorem compareResponses_self_eq_nil_iff (o : DiffOptions) {rs : List Response}
    (docs : ∀ r ∈ rs, r.Distinct) :
    compareResponses o rs rs = [] ↔
      ∀ r ∈ rs, ∀ s ∈ rs, r.status = s.status → r.Alike o s := by
  rw [compareResponses_eq_nil_iff]
  constructor
  · rintro ⟨silent, -⟩ r hr s hs status
    obtain ⟨f, hf, hrf⟩ := silent r hr
    obtain ⟨f', hf', hsf⟩ := silent s hs
    obtain rfl : f = f' := Option.some.inj (hf.symm.trans (status ▸ hf'))
    have hfirst := List.mem_of_find?_eq_some hf
    have hstatus : f.status = r.status := by simpa using List.find?_some hf
    have left := alike_of_compareResponse_eq_nil (docs r hr) (docs f hfirst) hstatus.symm hrf
    have right := alike_of_compareResponse_eq_nil (docs s hs) (docs f hfirst)
      (status.symm.trans hstatus.symm) hsf
    exact left.trans right.symm
  · intro agree
    refine ⟨fun r hr => ?_, fun s hs => List.mem_map.2 ⟨s, hs, rfl⟩⟩
    obtain ⟨f, hf⟩ : ∃ f, rs.find? (fun n => n.status == r.status) = some f := by
      refine Option.ne_none_iff_exists'.1 fun h => (find?_status_eq_none_iff rs r).1 h ?_
      exact List.mem_map.2 ⟨r, hr, rfl⟩
    have hfirst := List.mem_of_find?_eq_some hf
    have hstatus : f.status = r.status := by simpa using List.find?_some hf
    exact ⟨f, hf, compareResponse_eq_nil_of_alike (docs r hr) (docs f hfirst)
      (agree r hr f hfirst hstatus.symm)⟩

/-! ## Endpoints -/

/-- A change of an endpoint that can make a client fail. -/
inductive EndpointBreaks (old new : Endpoint) : Prop where
  | parameters (breaks : ParametersBreak old.parameters new.parameters)
  | body (breaks : BodyBreaks old.requestBody new.requestBody)
  | responses (breaks : ResponsesBreak old.responses new.responses)

/-- A comparison of endpoints breaks exactly where parameters, bodies or responses do. -/
theorem hasBreaking_compareEndpoints_iff (o : DiffOptions) (old : Endpoint) {new : Endpoint}
    (keyed : new.Keyed) : HasBreaking (compareEndpoints o old new) ↔ EndpointBreaks old new := by
  simp only [compareEndpoints, hasBreaking_append, hasBreaking_reportIf, breaking_harmlessIn,
    Bool.false_eq_true, and_false, or_false, false_or,
    hasBreaking_compareParameters_iff keyed.slots, hasBreaking_compareRequestBody_iff,
    hasBreaking_compareResponses_iff keyed.statuses]
  constructor
  · rintro ((parameters | body) | responses)
    · exact .parameters parameters
    · exact .body body
    · exact .responses responses
  · rintro (parameters | body | responses)
    · exact Or.inl (Or.inl parameters)
    · exact Or.inl (Or.inr body)
    · exact Or.inr responses

/-- With everything compared, only endpoints that match are silent. -/
theorem compareEndpoints_eq_nil_iff {old new : Endpoint} (keyedOld : old.Keyed)
    (keyedNew : new.Keyed) (docsOld : ∀ r ∈ old.responses, r.Distinct)
    (docsNew : ∀ r ∈ new.responses, r.Distinct) :
    compareEndpoints .default old new = [] ↔ old.Matches new := by
  have full : DiffOptions.default.ignoreDescriptions = false := rfl
  simp only [compareEndpoints, List.append_eq_nil_iff, reportIf_eq_nil_iff, full, Bool.not_false,
    Bool.true_and, bne_eq_false_iff_eq,
    compareParameters_eq_nil_iff_perm full keyedOld.slots keyedNew.slots,
    compareRequestBody_eq_nil_iff full,
    compareResponses_eq_nil_iff_sameUpToOrder .default docsOld docsNew keyedOld.statuses
      keyedNew.statuses]
  constructor
  · rintro ⟨⟨⟨⟨⟨⟨⟨summary, description⟩, operationId⟩, parameters⟩, body⟩, responses⟩, tags⟩,
      deprecated⟩
    exact ⟨summary, description, operationId, tags, deprecated, body, parameters, responses⟩
  · rintro ⟨summary, description, operationId, tags, deprecated, body, parameters, responses⟩
    exact ⟨⟨⟨⟨⟨⟨⟨summary, description⟩, operationId⟩, parameters⟩, body⟩, responses⟩, tags⟩,
      deprecated⟩

/-- An endpoint differs from itself only by its parameters and its responses. -/
theorem compareEndpoints_self_eq_nil_iff (o : DiffOptions) (e : Endpoint) :
    compareEndpoints o e e = [] ↔
      compareParameters o e.parameters e.parameters = [] ∧
        compareResponses o e.responses e.responses = [] := by
  simp [compareEndpoints]

/-- **The verdict on an endpoint.**  Whatever the options, a comparison of endpoints breaks
exactly in the listed cases, and in every other case all that it reports is harmless. -/
theorem endpoint_verdict (o : DiffOptions) (old new : Endpoint) (keyed : new.Keyed) :
    (HasBreaking (compareEndpoints o old new) ↔ EndpointBreaks old new) ∧
      (¬EndpointBreaks old new → ∀ d ∈ compareEndpoints o old new, d.breaking = false) := by
  have verdict := hasBreaking_compareEndpoints_iff o old keyed
  exact ⟨verdict, fun h => (not_hasBreaking_iff _).1 (mt verdict.1 h)⟩

/-- An endpoint with two parameters of one name, the first of them at a place of choice. -/
def limitedListing (location : Location) (summary : Option String) : Endpoint :=
  { Endpoint.plain .get "/items" with
    summary := summary
    parameters := [.plain "limit" location (.primitive "integer"),
      .plain "limit" .cookie (.primitive "integer")]
    responses := [.plain "200", .plain "404"] }

/-- A parameter that moves breaks, although its name is still there; new words do not. -/
theorem endpoint_verdict_limitedListing :
    EndpointBreaks (limitedListing .query none) (limitedListing .header none) ∧
      ¬EndpointBreaks (limitedListing .query none) (limitedListing .query (some "all")) := by
  have moved : (limitedListing .header none).Keyed := ⟨by decide, by decide⟩
  have worded : (limitedListing .query (some "all")).Keyed := ⟨by decide, by decide⟩
  refine ⟨(endpoint_verdict .default _ _ moved).1.1 (List.any_eq_true.1 (by decide)), fun h => ?_⟩
  have breaking := (endpoint_verdict .default _ _ worded).1.2 h
  exact absurd (List.any_eq_true.2 breaking) (by decide)

end Diff

end ApiCanon
