import ApiCanon.Pipeline.Basic
import ApiCanon.Proofs.Cache.Contents
import ApiCanon.Proofs.Cache.Key
import ApiCanon.Proofs.Json.RoundTrip
import ApiCanon.Proofs.Source.Outcomes

/-!
# Reading through the cache

What the cache adds to reading, and what it takes away.  A run reads requests one after another
through an empty cache, over whatever store.  What the store holds at any time are results of the
run, each under its own key (`Memo`, kept by every reading: `read_memo`).  So a result that is
found was read from the same contents, for the same source type and the same configuration up to
the order of fields, and comes back as it was, but for the examples that are null
(`cached_eq_withoutNulls`).

A reading through the cache therefore agrees with one without it unless the result is from the cache
and some example is null (`read_agrees_iff`).  In a store that works a request that is made again is
answered from the cache (`read_again`), so that such an example is lost at the second reading.

Three things are presumed of a run (`Recoverable`): that digests do not collide, that numbers are
read back from their texts, and that no configuration has an object with two fields of one name.
-/

namespace ApiCanon.Pipeline

open Json (Value)

/-- A request with the moment at which it is made. -/
abbrev Visit := Timestamp × ReadRequest

/-- The result of a visit without a cache. -/
def Visit.result [Grammars] (v : Visit) : ReadResult := Registry.defaults.read v.1 v.2

/-- The pipeline after some visits. -/
def after (visits : List Visit) (p : Pipeline) : Pipeline :=
  visits.foldl (fun p v => (p.read v.1 v.2).2) p

/-- What the cache has for a request, at the first look or at the second. -/
def hit? (now : Timestamp) (q : ReadRequest) (p : Pipeline) : Option ReadResult :=
  match p.cacheKey? q with
  | none => none
  | some key =>
    let (first, p) := p.cached now key q
    first <|> (p.cached now key q).1

section

variable [Grammars]

/-! ## What is presumed -/

/-- The contents that are digested in a run. -/
def contents (visits : List Visit) : List Bytes := visits.filterMap fun v => v.2.source.bytes?

/-- The configurations that are digested in a run. -/
def configs (visits : List Visit) : List Bytes := visits.map fun v => CacheKey.valueBytes v.2.config

/-- What is presumed of a run: digests do not collide, numbers are read back from their texts, and
no configuration has an object with two fields of one name. -/
structure Recoverable (visits : List Visit) : Prop where
  contentDigests : CollisionFree (contents visits)
  configDigests : CollisionFree (configs visits)
  configFields : ∀ v ∈ visits, (v.2.config.getD .null).Distinct
  configNumbers : ∀ v ∈ visits, (v.2.config.getD .null).Exact
  resultNumbers : ∀ v ∈ visits, v.result.toJson.Exact

/-- Two visits of one key are for the same. -/
lemma Recoverable.alike {visits : List Visit} (h : Recoverable visits) {v w : Visit}
    (hv : v ∈ visits) (hw : w ∈ visits) {b c : Bytes} (hb : v.2.source.bytes? = some b)
    (hc : w.2.source.bytes? = some c)
    (key : CacheKey.derive v.2.tag b v.2.config = CacheKey.derive w.2.tag c w.2.config) :
    v.2.Alike w.2 := by
  have content : CollisionFree [b, c] := h.contentDigests.mono <|
    List.cons_subset.2 ⟨List.mem_filterMap.2 ⟨v, hv, hb⟩,
      List.cons_subset.2 ⟨List.mem_filterMap.2 ⟨w, hw, hc⟩, List.nil_subset _⟩⟩
  have config : CollisionFree [CacheKey.valueBytes v.2.config, CacheKey.valueBytes w.2.config] :=
    h.configDigests.mono <| List.cons_subset.2 ⟨List.mem_map.2 ⟨v, hv, rfl⟩,
      List.cons_subset.2 ⟨List.mem_map.2 ⟨w, hw, rfl⟩, List.nil_subset _⟩⟩
  obtain ⟨tag, same, configs⟩ := CacheKey.derive_injective content config (h.configFields v hv)
    (h.configNumbers v hv) (h.configFields w hw) (h.configNumbers w hw) key
  exact ⟨tag, by simp [hb], by rw [hb, hc, same], configs⟩

/-! ## What the store holds -/

/-- The result of a visit, under its key and as it is kept. -/
def Kept (visits : List Visit) (key : String) (b : Bytes) : Prop :=
  ∃ v ∈ visits, ∃ c, v.2.source.bytes? = some c ∧
    key = CacheKey.derive v.2.tag c v.2.config ∧ b = Bytes.ofString v.result.toJson.compact

/-- The readers are the default ones, and the store holds nothing but results of the run. -/
structure Memo (visits : List Visit) (p : Pipeline) : Prop where
  registry : p.registry = .defaults
  store : p.cache.store.Holds (Kept visits)

lemma Kept.mono {visits more : List Visit} (sub : visits ⊆ more) {key : String} {b : Bytes}
    (h : Kept visits key b) : Kept more key b := by
  obtain ⟨v, hv, kept⟩ := h
  exact ⟨v, sub hv, kept⟩

lemma Memo.mono {visits more : List Visit} {p : Pipeline} (h : Memo visits p)
    (sub : visits ⊆ more) : Memo more p :=
  ⟨h.registry, h.store.imp fun _ _ kept => kept.mono sub⟩

lemma start_memo {store : Store} (empty : store.Empty) (defaultTtl resultTtl : Option Span) :
    Memo [] (start (.over store defaultTtl) resultTtl) :=
  ⟨rfl, empty.imp fun _ _ none => none.elim⟩

omit [Grammars] in
lemma cacheKey?_eq_some {p : Pipeline} {q : ReadRequest} {key : String}
    (h : p.cacheKey? q = some key) :
    ∃ b, q.source.bytes? = some b ∧ key = CacheKey.derive q.tag b q.config := by
  unfold cacheKey? at h
  split at h
  · cases h
  · next b hb =>
    split_ifs at h
    exact ⟨b, hb, (Option.some.inj h).symm⟩

/-- A look into the cache changes nothing in what the store may hold, and what it finds is decoded
from what the store held. -/
lemma cached_memo {visits : List Visit} {p : Pipeline} (h : Memo visits p) (now : Timestamp)
    (key : String) (q : ReadRequest) :
    Memo visits (p.cached now key q).2 ∧
      ∀ r ∈ (p.cached now key q).1, ∃ b v s, Kept visits key b ∧ Cache.valueOf? b = some v ∧
        ReadResult.decode v = .ok s ∧ r = s.readFrom q.source.origin? := by
  obtain ⟨store, found⟩ := Cache.getDecoded_holds now key
    (fun v => (ReadResult.decode v).toOption) h.store
  refine ⟨⟨h.registry, store⟩, fun r hr => ?_⟩
  obtain ⟨s, hs, rfl⟩ := Option.map_eq_some_iff.1 hr
  obtain ⟨b, kept, decoded⟩ := found s hs
  obtain ⟨v, hv, hd⟩ := Option.bind_eq_some_iff.1 decoded
  cases he : ReadResult.decode v with
  | error e =>
    rw [he] at hd
    cases hd
  | ok s' =>
    rw [he] at hd
    exact ⟨b, v, s', kept, hv, he, by rw [Option.some.inj hd]; rfl⟩

lemma readFresh_memo {visits : List Visit} {p : Pipeline} (h : Memo visits p) (now : Timestamp)
    {key : String} {q : ReadRequest} (hk : p.cacheKey? q = some key) :
    Memo (visits ++ [(now, q)]) (p.readFresh now key q).2 := by
  obtain ⟨b, hb, rfl⟩ := cacheKey?_eq_some hk
  have wider := h.mono (List.subset_append_left visits [(now, q)])
  unfold readFresh
  dsimp only
  split_ifs
  · refine ⟨h.registry, Cache.setValue_holds now _ wider.store ?_⟩
    rw [h.registry]
    exact ⟨(now, q), by simp, b, hb, rfl, rfl⟩
  · exact wider

omit [Grammars] in
lemma cached_cacheKey? (p : Pipeline) (now : Timestamp) (key : String) (q q' : ReadRequest) :
    (p.cached now key q).2.cacheKey? q' = p.cacheKey? q' := rfl

/-- **A reading keeps the store to results of the run.** -/
theorem read_memo {visits : List Visit} {p : Pipeline} (h : Memo visits p) (now : Timestamp)
    (q : ReadRequest) : Memo (visits ++ [(now, q)]) (p.read now q).2 := by
  have sub := List.subset_append_left visits [(now, q)]
  unfold read
  cases hk : p.cacheKey? q with
  | none => exact h.mono sub
  | some key =>
    have first := (cached_memo h now key q).1
    have second := (cached_memo first now key q).1
    have hk' : ((p.cached now key q).2.cached now key q).2.cacheKey? q = some key := by
      rw [cached_cacheKey?, cached_cacheKey?, hk]
    dsimp only
    generalize p.cached now key q = look at first second hk' ⊢
    obtain ⟨found, p'⟩ := look
    cases found with
    | some r => exact first.mono sub
    | none =>
      dsimp only at second hk' ⊢
      generalize p'.cached now key q = look at second hk' ⊢
      obtain ⟨found, p''⟩ := look
      cases found with
      | some r => exact second.mono sub
      | none => exact readFresh_memo second now hk'

lemma after_memo {before : List Visit} {p : Pipeline} (h : Memo before p) (visits : List Visit) :
    Memo (before ++ visits) (p.after visits) := by
  induction visits generalizing before p with
  | nil =>
    rw [List.append_nil]
    exact h
  | cons v visits ih =>
    have step := ih (read_memo h v.1 v.2)
    rw [List.append_assoc] at step
    exact step

/-! ## What is found -/

omit [Grammars] in
/-- The value that the text of a value is read as. -/
lemma eq_of_valueOf? {v w : Value} (distinct : v.Distinct) (exact : v.Exact)
    (h : Cache.valueOf? (Bytes.ofString v.compact) = some w) : w = v := by
  rw [Cache.valueOf?, Bytes.decode_ofString] at h
  dsimp only at h
  cases hr : Json.read v.compact.toList with
  | error e =>
    rw [hr] at h
    cases h
  | ok u =>
    rw [hr] at h
    rw [← Option.some.inj h]
    exact Json.eq_of_read_compact distinct exact hr

/-- A look finds what a reading finds, but for the examples that are null. -/
lemma cached_eq_withoutNulls {visits : List Visit} {p : Pipeline} (h : Memo visits p)
    (now : Timestamp) {key : String} {q : ReadRequest} (hk : p.cacheKey? q = some key)
    (run : Recoverable (visits ++ [(now, q)])) {r : ReadResult}
    (hr : r ∈ (p.cached now key q).1) :
    ∃ t, r = (Registry.defaults.read now q).withoutNulls.readAt t := by
  obtain ⟨b, v, s, kept, hv, decoded, rfl⟩ := (cached_memo h now key q).2 r hr
  obtain ⟨w, hw, c, hc, same, rfl⟩ := kept
  obtain ⟨d, hd, rfl⟩ := cacheKey?_eq_some hk
  have hw' : w ∈ visits ++ [(now, q)] := List.mem_append_left _ hw
  have alike := run.alike (v := (now, q)) (List.mem_append_right _ (List.mem_singleton.2 rfl)) hw'
    hd hc same
  have value := eq_of_valueOf? (ReadResult.distinct_toJson (Registry.read_distinct _ _ _))
    (run.resultNumbers w hw') hv
  obtain ⟨t, rfl⟩ := ReadResult.eq_of_decode (value ▸ decoded)
  refine ⟨t, ?_⟩
  rw [Registry.read_eq_of_alike _ alike now w.1]
  simp only [ReadResult.withoutNulls, ReadResult.readAt, ReadResult.readFrom, Option.map_map]
  rfl

/-- What is found comes back as a reading finds it, but for the examples that are null; and nothing
else is given back. -/
theorem read_eq {visits : List Visit} {p : Pipeline} (h : Memo visits p) (now : Timestamp)
    (q : ReadRequest) (run : Recoverable (visits ++ [(now, q)])) :
    (∀ r ∈ p.hit? now q, (p.read now q).1 = r ∧
        ∃ t, r = (Registry.defaults.read now q).withoutNulls.readAt t) ∧
      (p.hit? now q = none → (p.read now q).1 = Registry.defaults.read now q) := by
  unfold hit? read
  cases hk : p.cacheKey? q with
  | none => exact ⟨nofun, fun _ => by rw [h.registry]⟩
  | some key =>
    have first := fun r => cached_eq_withoutNulls (r := r) h now hk run
    have memo := (cached_memo h now key q).1
    have hk' : (p.cached now key q).2.cacheKey? q = some key := hk
    have second := fun r => cached_eq_withoutNulls (r := r) memo now hk' run
    have registry : ((p.cached now key q).2.cached now key q).2.registry = .defaults :=
      h.registry
    dsimp only
    generalize p.cached now key q = look at first second registry ⊢
    obtain ⟨found, p'⟩ := look
    cases found with
    | some r => exact ⟨fun r' hr' => ⟨Option.some.inj hr', first r' hr'⟩, nofun⟩
    | none =>
      dsimp only at second registry ⊢
      generalize p'.cached now key q = look at second registry ⊢
      obtain ⟨found, p''⟩ := look
      cases found with
      | some r => exact ⟨fun r' hr' => ⟨Option.some.inj hr', second r' hr'⟩, nofun⟩
      | none =>
        refine ⟨nofun, fun _ => ?_⟩
        have direct : (p''.readFresh now key q).1 = p''.registry.read now q := by
          unfold readFresh
          dsimp only
          split_ifs <;> rfl
        exact direct.trans (congrArg (fun r : Registry => r.read now q) registry)

/-! ## A cache that works -/

omit [Grammars] in
/-- In memory, and without a limit of time, what has been kept is found. -/
lemma cached_of_memory {p : Pipeline} {m : SortedMap CacheEntry} {key : String} {e : CacheEntry}
    {v : Value} {s : ReadResult} (store : p.cache.store = .memory m) (entry : m.get? key = some e)
    (lasting : e.ttl = none) (value : Cache.valueOf? e.value = some v)
    (decoded : ReadResult.decode v = .ok s) (now : Timestamp) (q : ReadRequest) :
    (p.cached now key q).1 = some (s.readFrom q.source.origin?) := by
  have found : p.cache.store.get now key = (.ok (some e), p.cache.store) := by
    simp only [store, Store.get, entry, CacheEntry.isExpiredAt_of_ttl_eq_none lasting now]
    rfl
  simp only [cached, Cache.getDecoded, Cache.get, found, Cache.settle, value, Option.bind_some,
    decoded, Except.toOption]
  rfl

/-- A first reading in memory keeps its result. -/
lemma store_read_start {now : Timestamp} {q : ReadRequest} {key : String}
    (hk : (start (.over (.memory .empty) none) none).cacheKey? q = some key)
    (succeeded : (Registry.defaults.read now q).succeeded = true) :
    ((start (.over (.memory .empty) none) none).read now q).2.cache.store =
      .memory (SortedMap.empty.insert key
        ⟨Bytes.ofString (Registry.defaults.read now q).toJson.compact, now, none⟩) := by
  unfold read
  rw [hk]
  simp only [cached, Cache.getDecoded, Cache.get, start, Cache.over, Store.get,
    SortedMap.get?_empty, Cache.settle, Option.map_none, readFresh, succeeded, if_true,
    Cache.setValue, Cache.setEncoded, Cache.set, Store.put]
  rfl

omit [Grammars] in
lemma read_eq_of_cached {p : Pipeline} {now : Timestamp} {q : ReadRequest} {key : String}
    {r : ReadResult} (hk : p.cacheKey? q = some key) (found : (p.cached now key q).1 = some r) :
    (p.read now q).1 = r := by
  unfold read
  rw [hk]
  dsimp only
  generalize p.cached now key q = look at found ⊢
  obtain ⟨hit, p'⟩ := look
  obtain rfl : hit = some r := found
  rfl

/-- A request that is made again is answered from the cache. -/
theorem read_again {now : Timestamp} {q : ReadRequest} {s : ReadResult} {b : Bytes}
    (loaded : q.source.bytes? = some b) (known : Registry.defaults.supports q.tag = true)
    (succeeded : (Registry.defaults.read now q).succeeded = true)
    (value : Cache.valueOf? (Bytes.ofString (Registry.defaults.read now q).toJson.compact) =
      some (Registry.defaults.read now q).toJson)
    (decoded : ReadResult.decode (Registry.defaults.read now q).toJson = .ok s)
    (later : Timestamp) :
    (((start (.over (.memory .empty) none) none).after [(now, q)]).read later q).1 =
      s.readFrom q.source.origin? := by
  have hk : (start (.over (.memory .empty) none) none).cacheKey? q =
      some (CacheKey.derive q.tag b q.config) := by
    have known' : (start (.over (.memory .empty) none) none).registry.supports q.tag = true :=
      known
    simp only [cacheKey?, loaded, known', if_true]
  have empty : (Store.memory .empty).Empty := nofun
  have memo := after_memo (start_memo empty none none) [(now, q)]
  have hk' : ((start (.over (.memory .empty) none) none).after [(now, q)]).cacheKey? q =
      some (CacheKey.derive q.tag b q.config) := by
    simp only [cacheKey?, loaded, memo.registry, known, if_true]
  exact read_eq_of_cached hk' <| cached_of_memory (store_read_start hk succeeded)
    (SortedMap.get?_insert_self _ _ _) rfl value decoded later q

/-! ## Reading with and without the cache -/

/-- **Reading through the cache agrees with reading**, unless the result is from the cache and some
example is null.  In every case the result is what a reading finds, but for these examples and the
moment. -/
theorem read_agrees_iff {store : Store} (empty : store.Empty) (defaultTtl resultTtl : Option Span)
    (visits : List Visit) (now : Timestamp) (q : ReadRequest)
    (run : Recoverable (visits ++ [(now, q)])) :
    let p := (start (.over store defaultTtl) resultTtl).after visits
    let direct := Registry.defaults.read now q
    ((p.read now q).1.Agrees direct ↔ (p.hit? now q ≠ none → ¬direct.HasNullExample)) ∧
      ((p.read now q).1 = direct ∨ ∃ t, (p.read now q).1 = direct.withoutNulls.readAt t) := by
  intro p direct
  have memo : Memo visits p := by
    have whole := after_memo (start_memo empty defaultTtl resultTtl) visits
    rwa [List.nil_append] at whole
  have distinct : direct.Distinct := Registry.read_distinct _ now q
  obtain ⟨hit, miss⟩ := read_eq memo now q run
  cases found : p.hit? now q with
  | none =>
    have same := miss found
    refine ⟨iff_of_true ?_ fun some => absurd rfl some, Or.inl same⟩
    rw [same]
    exact ReadResult.agrees_self distinct
  | some r =>
    obtain ⟨same, t, back⟩ := hit r found
    rw [same, back]
    refine ⟨?_, Or.inr ⟨t, rfl⟩⟩
    rw [ReadResult.agrees_withoutNulls_iff distinct t]
    exact ⟨fun none _ => none, fun none => none nofun⟩

end

/-! ### The same source at another place -/

-- What is read from a text that is given is decided by evaluation.
deriving instance DecidableEq for Response, Endpoint, Metadata, Ast, Reading

/-- A comment that declares an endpoint. -/
def listing : String := "/**\n * @route GET /items\n */\n"

def projectField : String × Value := ("projectName", .string "Shop")

def tagField : String × Value := ("defaultTag", .string "items")

def listingAt (path : String) (config : Json.Fields) : ReadRequest :=
  ⟨"jsdoc", .file path (some (Bytes.ofString listing)), some (.object config)⟩

/-- What is read in the comment. -/
def listed : Ast where
  endpoints := [{ Endpoint.plain .get "/items" with tags := ["items"] }]
  schemas := .empty
  metadata := ⟨"jsdoc", some "Shop", none, none, .empty⟩
  unresolved := false

lemma listing_result (now : Timestamp) (path : String) {config : Json.Fields}
    (h : config = [projectField, tagField] ∨ config = [tagField, projectField]) :
    Registry.defaults.read now (listingAt path config) =
      ⟨"jsdoc", some path, some (listed.stamp now), [], [], [], true⟩ := by
  have text : Registry.textOf (listingAt path config).source = .ok listing.toList := by
    simp only [Registry.textOf, listingAt, Source.bytes?, Bytes.decode_ofString]
  have reading : SourceKind.jsDoc.read listing.toList
      (.ofConfig (some (.object config))) = .success listed [] := by
    rcases h with rfl | rfl <;> decide +kernel
  have given : (listingAt path config).config = some (.object config) := rfl
  rw [Registry.read_of_textOf (k := .jsDoc) rfl text, given, reading]
  rfl

lemma listing_recoverable : Recoverable
    [(⟨0, 0⟩, listingAt "a.js" [projectField, tagField]),
      (⟨1, 0⟩, listingAt "b.js" [tagField, projectField])] where
  contentDigests := by
    intro a ha b hb _
    simp only [contents, List.filterMap_cons, listingAt, Source.bytes?, List.filterMap_nil,
      List.mem_cons, List.not_mem_nil, or_false, or_self] at ha hb
    rw [ha, hb]
  configDigests := by
    have same : CacheKey.valueBytes (some (.object [projectField, tagField])) =
        CacheKey.valueBytes (some (.object [tagField, projectField])) := by decide +kernel
    intro a ha b hb _
    simp only [configs, List.map_cons, listingAt, List.map_nil, same, List.mem_cons,
      List.not_mem_nil, or_false, or_self] at ha hb
    rw [ha, hb]
  configFields := by
    intro v hv
    simp only [List.mem_cons, List.not_mem_nil, or_false] at hv
    rcases hv with rfl | rfl
    all_goals
      refine .object (by decide) fun p hp => ?_
      simp only [List.mem_cons, List.not_mem_nil, or_false] at hp
      rcases hp with rfl | rfl <;> exact .string _
  configNumbers := by
    intro v hv
    simp only [List.mem_cons, List.not_mem_nil, or_false] at hv
    rcases hv with rfl | rfl <;> simp [listingAt, projectField, tagField]
  resultNumbers := by
    have exact (now : Timestamp) (path : String) : (ReadResult.toJson
        ⟨"jsdoc", some path, some (listed.stamp now), [], [], [], true⟩).Exact := by
      have zero : (Value.ofNat 0).Exact :=
        .number (Json.Number.readsBack_int (by decide) (by decide))
      simp [ReadResult.toJson, Ast.toJson, listed, Ast.stamp, Endpoint.toJson, Endpoint.plain,
        Metadata.toJson, textField, textsField, zero, SortedMap.empty, SortedMap.isEmpty,
        Method.toJson]
    intro v hv
    simp only [List.mem_cons, List.not_mem_nil, or_false] at hv
    rcases hv with rfl | rfl
    · rw [Visit.result, listing_result _ _ (Or.inl rfl)]
      exact exact _ _
    · rw [Visit.result, listing_result _ _ (Or.inr rfl)]
      exact exact _ _

/-- One source is read at two places, with one configuration in two orders. -/
theorem read_agrees_iff_listing :
    let visits : List Visit := [(⟨0, 0⟩, listingAt "a.js" [projectField, tagField])]
    let q := listingAt "b.js" [tagField, projectField]
    let p := (start (.over (.memory .empty) none) none).after visits
    (Store.memory .empty).Empty ∧ Recoverable (visits ++ [(⟨1, 0⟩, q)]) ∧
      (p.read ⟨1, 0⟩ q).1.Agrees (Registry.defaults.read ⟨1, 0⟩ q) := by
  intro visits q p
  have empty : (Store.memory .empty).Empty := nofun
  have agrees := (read_agrees_iff empty none none visits ⟨1, 0⟩ q listing_recoverable).1
  refine ⟨empty, listing_recoverable, agrees.2 fun _ null => ?_⟩
  rw [listing_result _ _ (Or.inr rfl)] at null
  obtain ⟨a, ha, e, he, r, hr, -⟩ := null
  obtain rfl := Option.some.inj ha
  obtain rfl := List.mem_singleton.1 he
  cases hr

/-! ### An example that is null -/

/-- A document with a response of which the example is null. -/
def nullDocument : String :=
  "\x7b\"openapi\":\"3.0.0\",\"paths\":\x7b\"/a\":\x7b\"get\":\x7b\"responses\":\x7b\"200\":\x7b" ++
    "\"content\":\x7b\"application/json\":\x7b\"example\":null\x7d\x7d\x7d\x7d\x7d\x7d\x7d\x7d"

def nullRequest : ReadRequest := ⟨"openapi", .inline (Bytes.ofString nullDocument), none⟩

/-- What is read in the document. -/
def nullAst : Ast where
  endpoints := [{ Endpoint.plain .get "/a" with responses := [⟨"200", none, none, some .null⟩] }]
  schemas := .empty
  metadata := ⟨"openapi", none, none, none, SortedMap.empty.insert "specVersion" (.string "3.x")⟩
  unresolved := false

def nullResult (now : Timestamp) : ReadResult :=
  ⟨"openapi", none, some (nullAst.stamp now), [], [], [], true⟩

lemma nullRequest_result (now : Timestamp) :
    Registry.defaults.read now nullRequest = nullResult now := by
  have text : Registry.textOf nullRequest.source = .ok nullDocument.toList := by
    simp only [Registry.textOf, nullRequest, Source.bytes?, Bytes.decode_ofString]
  have reading : SourceKind.openApi.read nullDocument.toList (.ofConfig nullRequest.config) =
      .success nullAst [] := by decide +kernel
  rw [Registry.read_of_textOf (k := .openApi) rfl text, reading]
  rfl

/-- **A result from the cache need not agree with a reading**: the example of the document is lost
when the document is read again. -/
theorem not_agrees_of_nullExample :
    ¬(((start (.over (.memory .empty) none) none).after [(⟨0, 0⟩, nullRequest)]).read ⟨0, 0⟩
      nullRequest).1.Agrees (Registry.defaults.read ⟨0, 0⟩ nullRequest) := by
  have result := nullRequest_result ⟨0, 0⟩
  have distinct : (nullResult ⟨0, 0⟩).Distinct := result ▸ Registry.read_distinct _ _ _
  have zero : (Value.ofNat 0).Exact := .number (Json.Number.readsBack_int (by decide) (by decide))
  have exact : (nullResult ⟨0, 0⟩).toJson.Exact := by
    simp [ReadResult.toJson, nullResult, nullAst, Ast.stamp, Ast.toJson, Endpoint.toJson,
      Endpoint.plain, Response.toJson, Metadata.toJson, textField, textsField, zero,
      SortedMap.empty, SortedMap.insert, SortedMap.insertEntry, SortedMap.isEmpty, Method.toJson]
  have flat : (nullResult ⟨0, 0⟩).toJson.height < Json.depthLimit := by decide +kernel
  have value : Cache.valueOf? (Bytes.ofString (nullResult ⟨0, 0⟩).toJson.compact) =
      some (nullResult ⟨0, 0⟩).toJson := by
    rw [Cache.valueOf?, Bytes.decode_ofString]
    dsimp only
    rw [Json.read_compact (ReadResult.distinct_toJson distinct) exact flat]
    rfl
  have decodes : ∃ s, ReadResult.decode (nullResult ⟨0, 0⟩).toJson = .ok s := by
    have ok : (ReadResult.decode (nullResult ⟨0, 0⟩).toJson).isOk = true := by decide +kernel
    cases hs : ReadResult.decode (nullResult ⟨0, 0⟩).toJson with
    | ok s => exact ⟨s, rfl⟩
    | error e =>
      rw [hs] at ok
      cases ok
  obtain ⟨s, decoded⟩ := decodes
  obtain ⟨t, rfl⟩ := ReadResult.eq_of_decode decoded
  rw [← result] at value decoded
  rw [read_again rfl (by decide) (result ▸ rfl) value decoded, result]
  have null : (nullResult ⟨0, 0⟩).HasNullExample :=
    ⟨_, rfl, _, List.mem_singleton.2 rfl, _, List.mem_singleton.2 rfl, rfl⟩
  exact fun agrees => (ReadResult.agrees_withoutNulls_iff distinct t).1 agrees null

end ApiCanon.Pipeline
