import ApiCanon.Proofs.Pipeline.Memo
import ApiCanon.Proofs.Pipeline.SingleFlight

/-!
# Shared readings

What single flight comes to for requests for the same: one source type, the same contents and
configurations that say the same, from whatever places.  Their results differ in the place and the
moment only (`Concerted`), so that they come back from the cache together or not at all.

If the brackets of the result are not too deep, it comes back, and there is one reading, which
serves all flights (`single_flight`).  Otherwise nothing is found under the key after a reading
either, and every flight reads for itself (`not_single_flight_of_deep`).
-/

namespace ApiCanon.Flights

open Json (Value)

variable {p : Pipeline} {requests : List ReadRequest} {s : Flights} {key : String} {m : Records}
  {q : ReadRequest} {r : ReadResult}

/-- All requests with a key are for the same, of which a reading has been a success. -/
structure Concerted (p : Pipeline) (requests : List ReadRequest) (key : String) (r : ReadResult) :
    Prop where
  succeeded : r.succeeded = true
  same : ∀ q ∈ requests, p.cacheKey? q = some key → ∀ t,
    p.registry.read t q = r.rewritten q.source.origin? t

/-- Requests that are alike are concerted by a reading of one of them. -/
lemma concerted_of_alike {t : Timestamp}
    (alike : ∀ q' ∈ requests, p.cacheKey? q' = some key → q'.Alike q)
    (succeeded : (p.registry.read t q).succeeded = true) :
    Concerted p requests key (p.registry.read t q) where
  succeeded := succeeded
  same := fun q' hq hk now => p.registry.read_eq_of_alike (alike q' hq hk) now t

lemma Concerted.reread?_eq (h : Concerted p requests key r) (portable : r.Portable)
    (flat : r.toJson.height < Json.depthLimit) (asked : q ∈ requests)
    (hk : p.cacheKey? q = some key) {t : Timestamp} (valid : t.Valid) :
    ReadResult.reread? (p.registry.read t q).written =
      some (p.registry.read t q).withoutNulls := by
  have distinct := p.registry.read_distinct t q
  rw [h.same q asked hk t] at distinct ⊢
  rw [ReadResult.reread?_written distinct (portable.rewritten _ valid),
    if_pos (by rwa [ReadResult.height_rewritten])]

lemma Concerted.lasting (h : Concerted p requests key r) (portable : r.Portable)
    (flat : r.toJson.height < Json.depthLimit) :
    Lasting Timestamp.Valid p requests key := by
  intro q asked hk t valid
  refine ⟨?_, by rw [h.reread?_eq portable flat asked hk valid]; rfl⟩
  rw [h.same q asked hk t]
  exact h.succeeded

lemma Concerted.fleeting (h : Concerted p requests key r) (numbers : r.toJson.Exact)
    (deep : Json.depthLimit ≤ r.toJson.height) : Fleeting p requests key := by
  intro q asked hk t
  have distinct := p.registry.read_distinct t q
  rw [h.same q asked hk t] at distinct ⊢
  refine ReadResult.reread?_written_of_deep distinct (ReadResult.exact_rewritten numbers _ t) ?_
  rwa [ReadResult.height_rewritten]

/-- **Requests for the same are read once**, whatever the schedule, if what is kept of a result
comes back. -/
theorem single_flight {t₀ : Timestamp} {steps : List (Timestamp × Nat)}
    (remembers : p.Remembers m) (unread : (m key).bind ReadResult.reread? = none)
    (asked : q ∈ requests) (hk : p.cacheKey? q = some key)
    (alike : ∀ q' ∈ requests, p.cacheKey? q' = some key → q'.Alike q)
    (succeeded : (p.registry.read t₀ q).succeeded = true)
    (portable : (p.registry.read t₀ q).Portable) (moments : ∀ v ∈ steps, v.1.Valid)
    (run : (start p requests).follow? steps = some s) :
    steps.length ≤ 8 * requests.length ∧
      (s.isOver = true ∨ ∃ i, ∀ now, (s.step? now i).isSome = true) ∧
      (s.isOver = true →
        s.gates.get? key = none ∧
        ((p.registry.read t₀ q).toJson.height < Json.depthLimit →
          ∃ t, ∃ q' ∈ requests, s.readingsOf p key = [(t, q')] ∧
            (¬(p.registry.read t₀ q).HasNullExample → ∀ f ∈ s.flights, f.key? = some key →
              f.stage = .returned
                ((p.registry.read t q').readFrom f.request.source.origin?))) ∧
        (Json.depthLimit ≤ (p.registry.read t₀ q).toJson.height →
          (s.readingsOf p key).length = requests.countP (fun q' => p.cacheKey? q' == some key) ∧
            ∀ f ∈ s.flights, f.key? = some key →
              ∃ t, f.stage = .returned (p.registry.read t f.request))) := by
  have concerted := concerted_of_alike alike succeeded
  have sound := sound_of_follow? run
  refine ⟨length_le_of_follow? run, ?_, fun ended => ⟨sound.gates ended key, fun flat => ?_,
    fun deep => ?_⟩⟩
  · refine (isOver_or_moves s).imp_right fun ⟨i, goesOn⟩ => ⟨i, fun now => ?_⟩
    obtain ⟨s', move⟩ := goesOn now
    rw [step?_eq_some_iff.2 move]
    rfl
  · have single := single_of_follow? remembers unread (concerted.lasting portable flat) moments run
    obtain ⟨t, q', r', valid, asked', once, back, returned⟩ :=
      single.over sound.serves ended ⟨q, asked, hk⟩
    refine ⟨t, q', asked', once, fun full f hf hkey => ?_⟩
    have hk' : p.cacheKey? q' = some key := by
      have mem : (t, q') ∈ s.readingsOf p key := once ▸ List.mem_singleton.2 rfl
      simpa using (List.mem_filter.1 mem).2
    have same := concerted.same q' asked' hk' t
    have full' : ¬(p.registry.read t q').HasNullExample := by
      rwa [same, ReadResult.hasNullExample_rewritten]
    rw [concerted.reread?_eq portable flat asked' hk' valid,
      ReadResult.withoutNulls_eq_self full'] at back
    obtain rfl := Option.some.inj back
    obtain ⟨r, stage, rfl | ⟨rfl, rfl⟩⟩ := returned f hf hkey
    · exact stage
    · rw [stage, same]
      rfl
  · exact vain_of_follow? remembers unread (concerted.fleeting portable.numbers deep) run ended

/-! ### The same source at two places -/

/-- A pipeline over an empty store in memory. -/
def inMemory : Pipeline := .start (.over (.memory .empty) none) none

lemma inMemory_remembers : inMemory.Remembers fun _ => none := Store.lasts_memory_empty

/-- A source at some place, with one configuration. -/
def listingFrom (path : String) : ReadRequest :=
  Pipeline.listingAt path [Pipeline.projectField, Pipeline.tagField]

/-- The key of the source. -/
def listingKey : String :=
  CacheKey.derive "jsdoc" (Bytes.ofString Pipeline.listing) (listingFrom "").config

lemma listingFrom_key (path : String) :
    inMemory.cacheKey? (listingFrom path) = some listingKey := by
  have known : inMemory.registry.supports (listingFrom path).tag = true := by
    have tag : (listingFrom path).tag = "jsdoc" := rfl
    rw [tag]
    decide
  rw [Pipeline.cacheKey?, known]
  rfl

lemma listingFrom_result (path : String) : inMemory.registry.read ⟨0, 0⟩ (listingFrom path) =
    ⟨"jsdoc", some path, some (Pipeline.listed.stamp ⟨0, 0⟩), [], [], [], true⟩ :=
  Pipeline.listing_result ⟨0, 0⟩ path (Or.inl rfl)

lemma listingFrom_portable : (inMemory.registry.read ⟨0, 0⟩ (listingFrom "a.js")).Portable where
  numbers := Pipeline.listing_recoverable.resultNumbers (⟨0, 0⟩, listingFrom "a.js")
    List.mem_cons_self
  lines := by
    rw [listingFrom_result]
    exact nofun
  timed := by
    rw [listingFrom_result]
    intro a ha t ht
    obtain rfl := Option.some.inj ha
    obtain rfl := Option.some.inj ht
    exact ⟨by decide, by decide⟩

lemma listingFrom_flat :
    (inMemory.registry.read ⟨0, 0⟩ (listingFrom "a.js")).toJson.height < Json.depthLimit := by
  rw [listingFrom_result]
  decide +kernel

lemma listingFrom_alike {q : ReadRequest} (hq : q ∈ [listingFrom "a.js", listingFrom "b.js"]) :
    q.Alike (listingFrom "a.js") := by
  simp only [List.mem_cons, List.not_mem_nil, or_false] at hq
  rcases hq with rfl | rfl <;> exact ⟨rfl, rfl, rfl, rfl⟩

/-- One source is read from two places at a time, and one reading serves both. -/
theorem single_flight_listing :
    ∃ steps s, (start inMemory [listingFrom "a.js", listingFrom "b.js"]).follow? steps = some s ∧
      s.isOver = true ∧ s.gates.get? listingKey = none ∧
      ∃ t q, s.readingsOf inMemory listingKey = [(t, q)] ∧ ∀ f ∈ s.flights, f.stage = .returned
        ((inMemory.registry.read t q).readFrom f.request.source.origin?) := by
  have result := listingFrom_result "a.js"
  have full : ¬(inMemory.registry.read ⟨0, 0⟩ (listingFrom "a.js")).HasNullExample := by
    rw [result]
    rintro ⟨a, ha, e, he, r, hr, -⟩
    obtain rfl := Option.some.inj ha
    obtain rfl := List.mem_singleton.1 he
    cases hr
  obtain ⟨steps, s, moments, run, ended⟩ :=
    exists_over (start inMemory [listingFrom "a.js", listingFrom "b.js"]) ⟨0, 0⟩
  have valid : ∀ v ∈ steps, v.1.Valid := fun v hv => moments v hv ▸ ⟨by decide, by decide⟩
  obtain ⟨-, -, atEnd⟩ := single_flight inMemory_remembers rfl List.mem_cons_self
    (listingFrom_key "a.js") (fun _ hq _ => listingFrom_alike hq) (by rw [result])
    listingFrom_portable valid run
  obtain ⟨gates, once, -⟩ := atEnd ended
  obtain ⟨t, q, -, once, returned⟩ := once listingFrom_flat
  refine ⟨steps, s, run, ended, gates, t, q, once, fun f hf => returned full f hf ?_⟩
  obtain ⟨i, hi⟩ := List.mem_iff_getElem?.1 hf
  obtain ⟨asked, ticket⟩ := (sound_of_follow? run).serves.flight hi
  have place := List.mem_of_getElem? asked
  simp only [List.mem_cons, List.not_mem_nil, or_false] at place
  rcases place with same | same <;> rw [ticket, same, listingFrom_key]

/-! ### A source with deep types -/

/-- A document with a query that answers with lists of lists. -/
def deepDocument : String :=
  "type Query \x7b a: " ++ String.ofList (List.replicate 130 '[') ++ "String" ++
    String.ofList (List.replicate 130 ']') ++ " \x7d"

def deepRequest : ReadRequest := ⟨"graphql", .inline (Bytes.ofString deepDocument), none⟩

/-- What is read in the document. -/
def deepAst : Ast where
  endpoints := [{ Endpoint.plain .query "a" with
    responses := [⟨"200", none, some (.nested 130 (.primitive "string")), none⟩] }]
  schemas := .empty
  metadata := ⟨"graphql", none, none, none, .empty⟩
  unresolved := false

lemma deepRequest_result (now : Timestamp) : inMemory.registry.read now deepRequest =
    ⟨"graphql", none, some (deepAst.stamp now), [], [], [], true⟩ := by
  have text : Registry.textOf deepRequest.source = .ok deepDocument.toList := by
    simp only [Registry.textOf, deepRequest, Source.bytes?, Bytes.decode_ofString]
  have reading : SourceKind.graphQl.read deepDocument.toList (.ofConfig deepRequest.config) =
      .success deepAst [] := by decide +kernel
  have answer : inMemory.registry.read now deepRequest = _ :=
    Registry.read_of_textOf (k := .graphQl) rfl text now
  rw [answer, reading]
  rfl

/-- The key of the document. -/
def deepKey : String := CacheKey.derive "graphql" (Bytes.ofString deepDocument) none

lemma deepRequest_key : inMemory.cacheKey? deepRequest = some deepKey := by
  have known : inMemory.registry.supports deepRequest.tag = true := by decide
  rw [Pipeline.cacheKey?, known]
  rfl

lemma deepRequest_fleeting : Fleeting inMemory [deepRequest, deepRequest] deepKey := by
  have result := deepRequest_result ⟨0, 0⟩
  have alike : ∀ q ∈ [deepRequest, deepRequest],
      inMemory.cacheKey? q = some deepKey → q.Alike deepRequest := by
    intro q hq _
    obtain rfl : q = deepRequest := by simpa using hq
    exact ⟨rfl, rfl, rfl, rfl⟩
  have zero : (Value.ofNat 0).Exact := .number (Json.Number.readsBack_int (by decide) (by decide))
  refine (concerted_of_alike alike (by rw [result])).fleeting ?_ ?_
  · rw [result]
    simp [ReadResult.toJson, deepAst, Ast.stamp, Ast.toJson, Endpoint.toJson, Endpoint.plain,
      Response.toJson, Metadata.toJson, textField, textsField, zero, SortedMap.empty,
      SortedMap.isEmpty, Method.toJson, TypeRef.exact_toJson]
  · rw [result]
    decide +kernel

/-- **What does not come back from the cache is read by every flight**, whatever the schedule: two
flights for one document make two readings, one after the other. -/
theorem not_single_flight_of_deep :
    inMemory.Remembers (fun _ => none) ∧ inMemory.cacheKey? deepRequest = some deepKey ∧
      (∀ t, (inMemory.registry.read t deepRequest).succeeded = true) ∧
      (∃ steps s, (start inMemory [deepRequest, deepRequest]).follow? steps = some s ∧
        s.isOver = true) ∧
      ∀ steps s, (start inMemory [deepRequest, deepRequest]).follow? steps = some s →
        s.isOver = true → (s.readingsOf inMemory deepKey).length = 2 := by
  refine ⟨inMemory_remembers, deepRequest_key, fun t => by rw [deepRequest_result], ?_, ?_⟩
  · obtain ⟨steps, s, -, run, ended⟩ :=
      exists_over (start inMemory [deepRequest, deepRequest]) ⟨0, 0⟩
    exact ⟨steps, s, run, ended⟩
  · intro steps s run ended
    obtain ⟨count, -⟩ := vain_of_follow? inMemory_remembers rfl deepRequest_fleeting run ended
    rw [count]
    simp [deepRequest_key]

end ApiCanon.Flights
