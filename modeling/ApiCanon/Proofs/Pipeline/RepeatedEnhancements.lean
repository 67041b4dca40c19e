import ApiCanon.Proofs.Cache.Identity
import ApiCanon.Proofs.Cache.Lasting
import ApiCanon.Proofs.Json.RoundTrip
import ApiCanon.Proofs.Pipeline.Enhancements

/-!
# Enhancements that are repeated

In a cache that lasts, an enhancement finds the texts that an earlier one of the same description
has left behind, and no others (`Pipeline.recollect_again`): the texts are kept under the keys of
their endpoints, which are all different if digests do not collide, and come back as they were.  So
it submits exactly the endpoints that lack a text (`Pipeline.Continues`).

`Pipeline.enhancement_applies` puts this together with what a single enhancement comes to.
-/

namespace ApiCanon

open Json (Value)

/-! ## Keys of endpoints -/

namespace CacheKey

/-- The canonical text of the JSON form of an endpoint tells the key of the endpoint. -/
lemma key_eq_of_endpointBytes_eq {e e' : Endpoint}
    (he : ∀ r ∈ e.responses, ∀ v ∈ r.example?, v.Document)
    (he' : ∀ r ∈ e'.responses, ∀ v ∈ r.example?, v.Document)
    (h : endpointBytes e = endpointBytes e') : e.key = e'.key := by
  have text : e.toJson.canonicalText = e'.toJson.canonicalText := Bytes.ofString_injective h
  have reordered := (Value.canonicalText_eq_iff (Endpoint.document_toJson he)
    (Endpoint.document_toJson he')).1 text
  have canonical := (Value.canonicalize_eq_iff (Endpoint.document_toJson he).distinct).2 reordered
  have field (k : String) : e.toJson.stringField? k = e'.toJson.stringField? k := by
    rw [← Value.stringField?_canonicalize, canonical, Value.stringField?_canonicalize]
  have method (e : Endpoint) : e.toJson.stringField? "method" = some e.method.text := rfl
  have path (e : Endpoint) : e.toJson.stringField? "path" = some e.path := rfl
  have methods := field "method"
  have paths := field "path"
  rw [method, method] at methods
  rw [path, path] at paths
  exact EndpointKey.mk.injEq .. ▸
    ⟨Method.text_injective (Option.some.inj methods), Option.some.inj paths⟩

/-- Endpoints of different keys have different keys in the cache. -/
lemma nodup_enhancement {es : List Endpoint} (unique : (es.map Endpoint.key).Nodup)
    (digests : CollisionFree (es.map endpointBytes))
    (documents : ∀ e ∈ es, ∀ r ∈ e.responses, ∀ v ∈ r.example?, v.Document)
    (context : Option Value) : (es.map fun e => enhancement e context).Nodup := by
  refine (unique.of_map _).map_on fun e he e' he' same => ?_
  obtain ⟨-, digest, -⟩ := compose_injective same
  have bytes := digests _ (List.mem_map_of_mem he) _ (List.mem_map_of_mem he') digest
  have key := key_eq_of_endpointBytes_eq (documents e he) (documents e' he') bytes
  exact List.inj_on_of_nodup_map unique he he' key

end CacheKey

namespace Pipeline

variable {now later : Timestamp} {context : Option Value} {p : Pipeline} {ast : Ast}
  {m : Records} {c : Cache} {ttl : Option Span}

/-! ## What is kept of texts -/

/-- The text for which something written into the cache is taken. -/
def recallText? (b : Bytes) : Option String := (Cache.valueOf? b).bind Value.asString?

lemma recallText?_compact (t : String) :
    recallText? (Bytes.ofString (Value.string t).compact) = some t := by
  rw [recallText?, Cache.valueOf?, Bytes.decode_ofString]
  dsimp only
  rw [Json.read_compact (.string t) (by simp) (by simp [Value.height, Json.depthLimit])]
  rfl

/-- What a cache that lasts has for endpoints is what it keeps under their keys. -/
lemma recollect_lasts (h : c.Lasts ttl m) (now : Timestamp) (context : Option Value)
    (es : List Endpoint) :
    (recollect now context es c).1 =
        es.map (fun e => (m (CacheKey.enhancement e context)).bind recallText?) ∧
      (recollect now context es c).2.Lasts ttl m := by
  induction es generalizing c with
  | nil => exact ⟨rfl, h⟩
  | cons e rest ih =>
    obtain ⟨found, next⟩ := Cache.getDecoded_lasts h now (CacheKey.enhancement e context)
      Value.asString?
    obtain ⟨others, last⟩ := ih next
    exact ⟨congrArg₂ List.cons found others, last⟩

/-- What is kept after some texts have been. -/
def noted (texts : List (String × String)) (m : Records) : Records :=
  texts.foldl
    (fun m v => Function.update m v.1 (some (Bytes.ofString (Value.string v.2).compact))) m

lemma keepTexts_lasts (h : c.Lasts ttl m) (later : Timestamp) (texts : List (String × String)) :
    (keepTexts later ttl texts c).Lasts ttl (noted texts m) := by
  induction texts generalizing c m with
  | nil => exact h
  | cons v rest ih => exact ih (Cache.setValue_lasts h later v.1 (.string v.2))

lemma noted_of_not_mem {texts : List (String × String)} {k : String}
    (h : k ∉ texts.map Prod.fst) : noted texts m k = m k := by
  induction texts generalizing m with
  | nil => rfl
  | cons v rest ih =>
    rw [noted, List.foldl_cons]
    exact (ih (List.not_mem_of_not_mem_cons h)).trans
      (Function.update_of_ne (List.ne_of_not_mem_cons h) _ _)

lemma noted_of_mem {texts : List (String × String)} (distinct : (texts.map Prod.fst).Nodup)
    {k t : String} (h : (k, t) ∈ texts) :
    noted texts m k = some (Bytes.ofString (Value.string t).compact) := by
  induction texts generalizing m with
  | nil => cases h
  | cons v rest ih =>
    obtain ⟨single, distinct⟩ := List.nodup_cons.1 distinct
    rw [noted, List.foldl_cons]
    rcases List.mem_cons.1 h with rfl | h
    · exact (noted_of_not_mem single).trans (Function.update_self _ _ _)
    · exact ih distinct h

/-- What is kept after the texts that lacked have been is what there was, with the gaps filled. -/
lemma recall_noted {es : List Endpoint} {key : Endpoint → String} (unique : (es.map key).Nodup)
    {ts given : List (Option String)} (found : ts = es.map fun e => (m (key e)).bind recallText?)
    (each : given.length = (lacking es ts).length) :
    es.map (fun e => (noted ((supplied (lacking es ts) given).map fun v => (key v.1, v.2)) m
        (key e)).bind recallText?) = filled ts given := by
  let texts := (supplied (lacking es ts) given).map fun v => (key v.1, v.2)
  have perm := supplied_filled_perm es ts given each
  have distinct : (texts.map Prod.fst).Nodup := by
    have keys := (((supplied_sublist _ given).trans (lacking_sublist es ts)).map key).nodup unique
    rw [List.map_map] at keys ⊢
    exact keys
  refine List.ext_getElem (by simp [length_filled, found]) fun i hi hi' => ?_
  have inside : i < es.length := by simpa using hi
  have here {us : List (Option String)} {t : String} :
      (es[i], t) ∈ supplied es us ↔ us[i]? = some (some t) :=
    getElem_mem_supplied_iff (unique.of_map _) inside
  have kept {t : String} (h : (es[i], t) ∈ supplied (lacking es ts) given) :
      (noted texts m (key es[i])).bind recallText? = some t := by
    rw [noted_of_mem distinct (List.mem_map_of_mem (f := fun v => (key v.1, v.2)) h),
      Option.bind_some, recallText?_compact]
  rw [List.getElem_map]
  refine Option.ext fun t => ?_
  rw [← Option.some_inj (a := (filled ts given)[i]), ← List.getElem?_eq_getElem hi', ← here,
    ← perm.mem_iff, List.mem_append]
  by_cases brought : key es[i] ∈ texts.map Prod.fst
  · have mine : ∃ u, (es[i], u) ∈ supplied (lacking es ts) given := by
      obtain ⟨v, mem, same⟩ := List.mem_map.1 brought
      obtain ⟨⟨e, u⟩, given, rfl⟩ := List.mem_map.1 mem
      have member := (lacking_sublist _ _).subset
        ((supplied_sublist _ _).subset (List.mem_map_of_mem (f := Prod.fst) given))
      obtain rfl := List.inj_on_of_nodup_map unique member (List.getElem_mem inside) same
      exact ⟨u, given⟩
    obtain ⟨u, hu⟩ := mine
    rw [kept hu]
    constructor
    · intro same
      exact Or.inr (Option.some.inj same ▸ hu)
    · intro either
      have filledHere := here.1 (perm.mem_iff.1 (List.mem_append.2 either))
      have filledToo := here.1 (perm.mem_iff.1 (List.mem_append_right _ hu))
      exact Option.some.inj (filledToo.symm.trans filledHere)
  · have notMine : (es[i], t) ∉ supplied (lacking es ts) given := fun mem =>
      brought (List.mem_map_of_mem (f := Prod.fst)
        (List.mem_map_of_mem (f := fun v => (key v.1, v.2)) mem))
    rw [noted_of_not_mem brought, or_iff_left notMine, here, found, List.getElem?_map,
      List.getElem?_eq_getElem inside, Option.map_some, Option.some_inj]

/-! ## Two enhancements -/

/-- In a cache that lasts, what an enhancement leaves behind is found again. -/
theorem recollect_again (unique : (ast.endpoints.map Endpoint.key).Nodup)
    (lasts : p.cache.Lasts p.resultTtl m)
    (digests : CollisionFree (ast.endpoints.map CacheKey.endpointBytes))
    (documents : ∀ e ∈ ast.endpoints, ∀ r ∈ e.responses, ∀ v ∈ r.example?, v.Document)
    {x : Enhancement} {p' : Pipeline}
    (applied : Applied later ast context p (recollect now context ast.endpoints p.cache) x p')
    (now' : Timestamp) :
    (recollect now' context ast.endpoints p'.cache).1 =
      filled (recollect now context ast.endpoints p.cache).1 (x.ledger.outcomes.map textOf?) := by
  obtain ⟨found, next⟩ := recollect_lasts lasts now context ast.endpoints
  have each : (x.ledger.outcomes.map textOf?).length =
      (lacking ast.endpoints (recollect now context ast.endpoints p.cache).1).length := by
    rw [List.length_map, ← applied.each.length_eq, List.length_map,
      ← List.length_map (f := Prod.snd), Allocator.map_snd_label]
  rw [applied.kept, (recollect_lasts (keepTexts_lasts next later _) now' context ast.endpoints).1]
  exact recall_noted (CacheKey.nodup_enhancement unique digests documents context) found each

/-- Another enhancement of a description submits the endpoints that lack a text, and gives the
others the text that they have. -/
def Continues (ast : Ast) (context : Option Value) (texts : List (Option String))
    (x : Enhancement) (p : Pipeline) : Prop :=
  ∀ now : Timestamp,
    (p.plan now context ast.endpoints default).1.items =
        (p.itemIds.label (lacking ast.endpoints texts)).map (itemFor context) ∧
      ∀ later options v, Enhances now later ast options context p v → ∀ y, v.1 = .ok y →
        ∀ (i : Nat) (t : String), texts[i]? = some (some t) →
          y.ast.endpoints[i]? = x.ast.endpoints[i]?

lemma items_plan (now : Timestamp) (context : Option Value) (es : List Endpoint) (p : Pipeline) :
    (p.plan now context es default).1.items =
      (p.itemIds.label (lacking es (recollect now context es p.cache).1)).map
        (itemFor context) := by
  rw [plan_default]

lemma Applied.continues (unique : (ast.endpoints.map Endpoint.key).Nodup)
    (lasts : p.cache.Lasts p.resultTtl m)
    (digests : CollisionFree (ast.endpoints.map CacheKey.endpointBytes))
    (documents : ∀ e ∈ ast.endpoints, ∀ r ∈ e.responses, ∀ v ∈ r.example?, v.Document)
    {x : Enhancement} {p' : Pipeline}
    (applied : Applied later ast context p (recollect now context ast.endpoints p.cache) x p') :
    Continues ast context
      (filled (recollect now context ast.endpoints p.cache).1 (x.ledger.outcomes.map textOf?))
      x p' := by
  intro now'
  have again := recollect_again unique lasts digests documents applied now'
  refine ⟨by rw [items_plan, again], fun later' options v repeated y hy i t given => ?_⟩
  have applied' := repeated.applied unique hy
  have kept : (filled _ (y.ledger.outcomes.map textOf?))[i]? = some (some t) :=
    getElem?_filled_of_some given
  rw [applied.described, applied'.described, again]
  simp only [List.getElem?_zipWith]
  rw [kept, given]

/-- **An enhancement applies exactly what succeeded**, by whatever schedule of its batch, and
another one of the same description has what it left. -/
theorem enhancement_applies (unique : (ast.endpoints.map Endpoint.key).Nodup)
    (now later : Timestamp) (options : BatchOptions) (context : Option Value) (p : Pipeline) :
    let found := recollect now context ast.endpoints p.cache
    (∀ service, Enhances now now ast options context p
        (p.enhance now ast service options context)) ∧
      (p.plan now context ast.endpoints default).1.items =
        (p.itemIds.label (lacking ast.endpoints found.1)).map (itemFor context) ∧
      ∀ v, Enhances now later ast options context p v →
        ((∃ e, v.1 = .error e) ↔ options.maxConcurrency = 0) ∧
        ∀ x, v.1 = .ok x → Applied later ast context p found x v.2 ∧
          ∀ m, p.cache.Lasts p.resultTtl m →
            CollisionFree (ast.endpoints.map CacheKey.endpointBytes) →
            (∀ e ∈ ast.endpoints, ∀ r ∈ e.responses, ∀ u ∈ r.example?, u.Document) →
            found.1 = ast.endpoints.map
                (fun e => (m (CacheKey.enhancement e context)).bind recallText?) ∧
              Continues ast context (filled found.1 (x.ledger.outcomes.map textOf?)) x v.2 := by
  intro found
  refine ⟨fun service => enhances_enhance now ast service options context p,
    items_plan now context ast.endpoints p,
    fun v enhanced => ⟨enhanced.fails_iff, fun x hx => ?_⟩⟩
  have applied := enhanced.applied unique hx
  exact ⟨applied, fun m lasts digests documents =>
    ⟨(recollect_lasts lasts now context ast.endpoints).1,
      applied.continues unique lasts digests documents⟩⟩

/-! ### Two endpoints of which one is written about -/

/-- A description of two endpoints. -/
def pair : Ast where
  endpoints := [.plain .get "/a", .plain .get "/b"]
  schemas := .empty
  metadata := ⟨"jsdoc", none, none, none, .empty⟩
  unresolved := false

/-- The second item fails before the first one is answered. -/
def secondFails : List Run.Step :=
  [.takeUp, .takeUp, .complete 1 (.error default),
    .complete 0 (.ok ⟨.object [("description", .string "Lists all.")], defaultConfidence⟩)]

/-- The run that ends with these steps. -/
def afterSecondFails (ids : Allocator) : Run where
  options := ⟨2, .carryOn, none⟩
  next := 2
  waiting := []
  active := []
  done := [(1, .of (itemFor none (ids.next.2.next.1, .plain .get "/b")) (.failed default)),
    (0, .of (itemFor none (ids.next.1, .plain .get "/a"))
      (.answered ⟨.object [("description", .string "Lists all.")], defaultConfidence⟩))]
  stopped := false

lemma outcomes_afterSecondFails (ids : Allocator) :
    (afterSecondFails ids).outcomes.map textOf? = [some "Lists all.", none] := by
  simp [Run.outcomes, afterSecondFails, List.mergeSort]
  exact ⟨rfl, rfl⟩

/-- One of two endpoints is written about; it has its text from then on, and the other one is
submitted again. -/
theorem enhancement_applies_pair :
    let p := start (.over (.memory .empty) none) none
    ∃ x p', Enhances ⟨0, 0⟩ ⟨1, 0⟩ pair ⟨2, .carryOn, none⟩ none p (.ok x, p') ∧
      x.ast.endpoints.map Endpoint.enhancedDescription = [some "Lists all.", none] ∧
      (p'.plan ⟨2, 0⟩ none pair.endpoints default).1.items.map BatchItem.payload =
        [(Endpoint.plain .get "/b").toJson] := by
  intro p
  let options : BatchOptions := ⟨2, .carryOn, none⟩
  have unique : (pair.endpoints.map Endpoint.key).Nodup := by decide
  have lasts : p.cache.Lasts p.resultTtl fun _ => none := Store.lasts_memory_empty
  have digests : CollisionFree (pair.endpoints.map CacheKey.endpointBytes) := by
    have apart : Sha256.hex (CacheKey.endpointBytes (.plain .get "/a")) ≠
        Sha256.hex (CacheKey.endpointBytes (.plain .get "/b")) := by decide +kernel
    intro a ha b hb same
    simp only [pair, List.map_cons, List.map_nil, List.mem_cons, List.not_mem_nil, or_false]
      at ha hb
    rcases ha with rfl | rfl <;> rcases hb with rfl | rfl
    · rfl
    · exact absurd same apart
    · exact absurd same.symm apart
    · rfl
  have documents : ∀ e ∈ pair.endpoints, ∀ r ∈ e.responses, ∀ v ∈ r.example?, v.Document := by
    intro e he r hr
    simp only [pair, List.mem_cons, List.not_mem_nil, or_false] at he
    rcases he with rfl | rfl <;> cases hr
  obtain ⟨-, items, applies⟩ := enhancement_applies unique ⟨0, 0⟩ ⟨1, 0⟩ options none p
  obtain ⟨none, -⟩ | ⟨-, b, made⟩ := make_plan ⟨0, 0⟩ none pair.endpoints p options
  · cases none
  obtain ⟨all, chosen, -⟩ := Batch.make_eq_ok made
  have found : (recollect ⟨0, 0⟩ none pair.endpoints p.cache).1 = [none, none] :=
    (recollect_lasts lasts ⟨0, 0⟩ none pair.endpoints).1
  rw [found] at items
  have run : (Run.start b).follow? secondFails = some (afterSecondFails p.itemIds) := by
    rw [Run.start, all, chosen, items]
    rfl
  have enhanced := @Enhances.concluded _ ⟨1, 0⟩ pair _ _ _ _ _ _ 2 made run rfl
  obtain ⟨-, applied⟩ := applies _ enhanced
  obtain ⟨applied, again⟩ := applied _ rfl
  obtain ⟨-, again⟩ := again _ lasts digests documents
  have texts : filled (recollect ⟨0, 0⟩ none pair.endpoints p.cache).1
      ((afterSecondFails p.itemIds).outcomes.map textOf?) = [some "Lists all.", none] := by
    rw [found, outcomes_afterSecondFails]
    rfl
  refine ⟨_, _, enhanced, ?_, ?_⟩
  · have described := applied.described.trans (congrArg (fun ts => { pair with
      endpoints := List.zipWith Endpoint.described pair.endpoints ts }) texts)
    rw [described]
    rfl
  · have left := (again ⟨2, 0⟩).1.trans (congrArg (fun ts => (Allocator.label _ (lacking
      pair.endpoints ts)).map (itemFor none)) texts)
    exact congrArg (List.map BatchItem.payload) left

end Pipeline

end ApiCanon
