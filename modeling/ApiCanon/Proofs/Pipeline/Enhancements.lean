import ApiCanon.Proofs.Collection.KeyedList
import ApiCanon.Proofs.Pipeline.Plans

/-!
# What comes of an enhancement

An enhancement has a batch run, and which items of it end how and in which order is not up to the
enhancement; so it may come to a different end by every schedule (`Pipeline.Enhances`).  What a
service makes of it is one of these (`Pipeline.enhances_enhance`).

By whatever schedule, what has been submitted, answered and found in the cache is matched endpoint
by endpoint (`Pipeline.Applied`, `Pipeline.applied_conclude`).  An outcome stands in the place of
its item and bears the same identifier, the items are those of the endpoints without a text in the
cache, and no two endpoints have one key.
-/

namespace ApiCanon

open Json (Value)

/-! ## Descriptions with texts -/

/-- The endpoint with a text, if there is one. -/
def Endpoint.described (e : Endpoint) : Option String → Endpoint
  | some t => { e with enhancedDescription := some t }
  | none => e

namespace Ast

lemma enhancement?_eq_some_iff {texts : List (EndpointKey × String)}
    (distinct : (texts.map Prod.fst).Nodup) {k : EndpointKey} {t : String} :
    enhancement? texts k = some t ↔ (k, t) ∈ texts := by
  constructor
  · intro h
    obtain ⟨v, hv, rfl⟩ := Option.map_eq_some_iff.1 h
    obtain rfl : v.1 = k := by simpa using List.find?_some hv
    exact List.mem_reverse.1 (List.mem_of_find?_eq_some hv)
  · intro h
    have turned : (texts.reverse.map Prod.fst).Nodup := by
      rw [List.map_reverse]
      exact List.nodup_reverse.2 distinct
    rw [enhancement?, find?_key_eq_some turned (List.mem_reverse.2 h)]
    rfl

/-- Each endpoint gets the text that is given for it. -/
lemma withEnhancements_eq {a : Ast} (unique : (a.endpoints.map Endpoint.key).Nodup)
    {texts : List (EndpointKey × String)} {given : List (Option String)}
    (each : given.length = a.endpoints.length)
    (same : texts.Perm ((supplied a.endpoints given).map fun v => (v.1.key, v.2))) :
    a.withEnhancements texts =
      { a with endpoints := List.zipWith Endpoint.described a.endpoints given } := by
  have distinct : (texts.map Prod.fst).Nodup := by
    have keys := ((supplied_sublist a.endpoints given).map Endpoint.key).nodup unique
    rw [List.map_map] at keys
    rw [(same.map Prod.fst).nodup_iff, List.map_map]
    exact keys
  have endpoint : ∀ (i : Nat) (hi : i < a.endpoints.length) (hi' : i < given.length),
      enhancement? texts a.endpoints[i].key = given[i] := by
    intro i hi hi'
    refine Option.ext fun t => ?_
    rw [enhancement?_eq_some_iff distinct, same.mem_iff, ← Option.some_inj,
      ← List.getElem?_eq_getElem hi', ← getElem_mem_supplied_iff (unique.of_map _) hi, List.mem_map]
    constructor
    · rintro ⟨⟨e, u⟩, mem, pair⟩
      obtain ⟨key, rfl⟩ := Prod.mk.inj pair
      have inside := (supplied_sublist _ _).subset (List.mem_map_of_mem mem)
      obtain rfl := List.inj_on_of_nodup_map unique inside (List.getElem_mem hi) key
      exact mem
    · exact fun mem => ⟨_, mem, rfl⟩
  have all : (a.withEnhancements texts).endpoints =
      List.zipWith Endpoint.described a.endpoints given := by
    refine List.ext_getElem (by simp [withEnhancements, each]) fun i hi hi' => ?_
    have inside : i < a.endpoints.length := by simpa [withEnhancements] using hi
    simp only [withEnhancements, List.getElem_map, List.getElem_zipWith,
      endpoint i inside (each ▸ inside)]
    cases given[i] <;> rfl
  exact congrArg (fun es => { a with endpoints := es }) all

end Ast

namespace Pipeline

variable {now later : Timestamp} {context : Option Value} {p : Pipeline} {ast : Ast}

/-! ## Schedules of an enhancement -/

/-- What an enhancement comes to when its batch has run. -/
def conclude (later : Timestamp) (ast : Ast) (plan : EnhancementPlan) (ledger : Ledger)
    (calls : Nat) (p : Pipeline) : Enhancement × Pipeline :=
  let kept := p.collect later plan.pending ledger.outcomes plan.texts
  (⟨ast.withEnhancements kept.1, kept.1, ledger, plan.cached, calls⟩, kept.2)

/-- What an enhancement may come to, by some schedule of its batch.  The cache is asked at one
moment, and texts are kept at another one. -/
inductive Enhances (now later : Timestamp) (ast : Ast) (options : BatchOptions)
    (context : Option Value) (p : Pipeline) : Except AppError Enhancement × Pipeline → Prop
  | refused {e : AppError}
      (bad : Batch.make (p.plan now context ast.endpoints default).1.items options = .error e) :
      Enhances now later ast options context p
        (.error e, (p.plan now context ast.endpoints default).2)
  | concluded {b : Batch} {steps : List Run.Step} {r : Run} (calls : Nat)
      (made : Batch.make (p.plan now context ast.endpoints default).1.items options = .ok b)
      (run : (Run.start b).follow? steps = some r) (ended : r.isOver = true) :
      Enhances now later ast options context p
        ((conclude later ast (p.plan now context ast.endpoints default).1 (r.ledger b.id) calls
          (p.plan now context ast.endpoints default).2).map .ok id)

/-- What a service makes of an enhancement is by a schedule. -/
theorem enhances_enhance (now : Timestamp) (ast : Ast) (service : Service)
    (options : BatchOptions) (context : Option Value) (p : Pipeline) :
    Enhances now now ast options context p (p.enhance now ast service options context) := by
  have refused := @Enhances.refused now now ast options context p
  have concluded := @Enhances.concluded now now ast options context p
  unfold enhance
  generalize p.plan now context ast.endpoints default = planned at refused concluded ⊢
  obtain ⟨plan, p'⟩ := planned
  dsimp only at refused concluded ⊢
  cases made : Batch.make plan.items options with
  | error e => exact refused made
  | ok b =>
    obtain ⟨-, rfl, room⟩ := Batch.make_eq_ok made
    obtain ⟨⟨steps, run⟩, ended⟩ := Timeline.complete_follows service room
    exact concluded (Timeline.complete service b).calls made run ended

/-! ## What is collected -/

/-- Keeps texts in the cache, each under its key. -/
def keepTexts (later : Timestamp) (ttl : Option Span) (texts : List (String × String))
    (c : Cache) : Cache :=
  texts.foldl (fun c v => c.setValue later v.1 (.string v.2) ttl) c

/-- Outcomes bring texts for the endpoints that are pending, in order. -/
lemma collect_eq {pending ts : List PendingText} {os : List ItemOutcome}
    (distinct : (pending.map PendingText.itemId).Nodup) (sub : ts ⊆ pending)
    (each : List.Forall₂ (fun t o => t.itemId = o.id) ts os)
    (texts : List (EndpointKey × String)) (p : Pipeline) :
    let brought := supplied ts (os.map textOf?)
    p.collect later pending os texts =
      (texts ++ brought.map (fun v => (v.1.endpoint, v.2)),
        { p with
          cache := keepTexts later p.resultTtl (brought.map fun v => (v.1.cacheKey, v.2))
            p.cache }) := by
  induction each generalizing texts p with
  | nil =>
    simp only [supplied, collect, List.map_nil, List.append_nil]
    rfl
  | @cons t o ts os same _ ih =>
    obtain ⟨here, sub⟩ := List.cons_subset.1 sub
    have found : (pending.find? fun t => t.itemId == o.id) = some t :=
      same ▸ find?_key_eq_some distinct here
    intro brought
    rw [collect, found]
    cases text : textOf? o with
    | none =>
      simp only [ih sub, brought, List.map_cons, text, supplied]
    | some text =>
      simp only [ih sub, brought, List.map_cons, text, supplied, List.append_assoc,
        List.singleton_append]
      rfl

/-- The outcomes of the items of some endpoints bring texts for these endpoints. -/
lemma collect_pendingFor {a : Allocator} {left : List Endpoint} {os : List ItemOutcome}
    (each : List.Forall₂ (fun i o => o.id = i.id ∧ o.kind = i.kind)
      ((a.label left).map (itemFor context)) os)
    (texts : List (EndpointKey × String)) (p : Pipeline) :
    let brought := supplied left (os.map textOf?)
    p.collect later ((a.label left).map (pendingFor context)) os texts =
      (texts ++ brought.map (fun v => (v.1.key, v.2)),
        { p with
          cache := keepTexts later p.resultTtl
            (brought.map fun v => (CacheKey.enhancement v.1 context, v.2)) p.cache }) := by
  intro brought
  have distinct : (((a.label left).map (pendingFor context)).map PendingText.itemId).Nodup := by
    rw [List.map_map]
    exact a.nodup_label left
  have pending : List.Forall₂ (fun t o => t.itemId = o.id)
      ((a.label left).map (pendingFor context)) os :=
    List.forall₂_map_left_iff.2 <|
      (List.forall₂_map_left_iff.1 each).imp fun _ _ same => same.1.symm
  have byLabel : brought =
      (supplied (a.label left) (os.map textOf?)).map fun v => (v.1.2, v.2) := by
    rw [← supplied_map, Allocator.map_snd_label]
  rw [collect_eq distinct (List.Subset.refl _) pending, supplied_map, byLabel]
  simp only [List.map_map]
  rfl

/-- What becomes of a description: the items are those of the endpoints for which the cache has no
text, and have one outcome each; an endpoint gets the text from the cache, or the one that its
outcome brings; and the texts that outcomes bring are kept. -/
structure Applied (later : Timestamp) (ast : Ast) (context : Option Value) (p : Pipeline)
    (found : List (Option String) × Cache) (x : Enhancement) (p' : Pipeline) : Prop where
  each : List.Forall₂ (fun i o => o.id = i.id ∧ o.kind = i.kind)
    ((p.itemIds.label (lacking ast.endpoints found.1)).map (itemFor context)) x.ledger.outcomes
  cached : x.cached = found.1.countP Option.isSome
  total : x.cached + x.ledger.total = ast.endpoints.length
  described : x.ast = { ast with
    endpoints := List.zipWith Endpoint.described ast.endpoints
      (filled found.1 (x.ledger.outcomes.map textOf?)) }
  kept : p' = { p with
    cache := keepTexts later p.resultTtl
      ((supplied (lacking ast.endpoints found.1) (x.ledger.outcomes.map textOf?)).map fun v =>
        (CacheKey.enhancement v.1 context, v.2)) found.2
    itemIds := p.itemIds.skip x.ledger.total }

lemma plan_default (now : Timestamp) (context : Option Value) (es : List Endpoint)
    (p : Pipeline) :
    let found := recollect now context es p.cache
    let submitted := p.itemIds.label (lacking es found.1)
    p.plan now context es default =
      (⟨(supplied es found.1).map (fun v => (v.1.key, v.2)), found.1.countP Option.isSome,
          submitted.map (itemFor context), submitted.map (pendingFor context)⟩,
        { p with cache := found.2, itemIds := p.itemIds.skip (lacking es found.1).length }) := by
  intro found submitted
  rw [plan_eq]
  exact Prod.ext (EnhancementPlan.mk.injEq .. ▸ ⟨rfl, Nat.zero_add _, rfl, rfl⟩) rfl

/-- Every schedule of the batch is applied, when it is over. -/
theorem applied_conclude (unique : (ast.endpoints.map Endpoint.key).Nodup) (now : Timestamp)
    {b : Batch} {r : Run} (underway : Run.Underway b r) (ended : r.isOver = true)
    (items : b.items = (p.plan now context ast.endpoints default).1.items) (calls : Nat) :
    let v := conclude later ast (p.plan now context ast.endpoints default).1 (r.ledger b.id) calls
      (p.plan now context ast.endpoints default).2
    Applied later ast context p (recollect now context ast.endpoints p.cache) v.1 v.2 := by
  have length := length_recollect now context ast.endpoints p.cache
  have outcomes := underway.outcomes_eq ended
  rw [items] at outcomes
  simp only [conclude, plan_default] at outcomes ⊢
  generalize recollect now context ast.endpoints p.cache = found at length outcomes ⊢
  have each : List.Forall₂ (fun i o => o.id = i.id ∧ o.kind = i.kind)
      ((p.itemIds.label (lacking ast.endpoints found.1)).map (itemFor context))
      (r.ledger b.id).outcomes :=
    outcomes.imp fun i o ⟨e, same⟩ => same ▸ ⟨rfl, rfl⟩
  have total : (r.ledger b.id).total = (lacking ast.endpoints found.1).length := by
    rw [Ledger.total, ← each.length_eq, List.length_map,
      ← List.length_map (f := Prod.snd), Allocator.map_snd_label]
  rw [collect_pendingFor each]
  refine ⟨each, rfl, ?_, ?_, ?_⟩
  · rw [total]
    exact countP_add_length_lacking _ _ length
  · refine Ast.withEnhancements_eq unique ((length_filled _ _).trans length) ?_
    rw [← List.map_append]
    exact (supplied_filled_perm _ _ _ ((List.length_map _).trans total)).map _
  · rw [total]

lemma Enhances.applied {options : BatchOptions} {v : Except AppError Enhancement × Pipeline}
    (h : Enhances now later ast options context p v)
    (unique : (ast.endpoints.map Endpoint.key).Nodup) {x : Enhancement} (hx : v.1 = .ok x) :
    Applied later ast context p (recollect now context ast.endpoints p.cache) x v.2 := by
  cases h with
  | refused bad => cases hx
  | @concluded b steps r calls made run ended =>
    obtain rfl := Except.ok.inj hx
    obtain ⟨items, -, -⟩ := Batch.make_eq_ok made
    exact applied_conclude unique now ((Run.start_underway b).follow run) ended items calls

/-- An enhancement fails only if no item may be under way. -/
lemma Enhances.fails_iff {options : BatchOptions} {v : Except AppError Enhancement × Pipeline}
    (h : Enhances now later ast options context p v) :
    (∃ e, v.1 = .error e) ↔ options.maxConcurrency = 0 := by
  have planned := make_plan now context ast.endpoints p options
  cases h with
  | refused bad =>
    rcases planned with ⟨none, -⟩ | ⟨-, b, made⟩
    · exact iff_of_true ⟨_, rfl⟩ none
    · cases bad.symm.trans made
  | concluded calls made run ended =>
    rcases planned with ⟨-, e, bad⟩ | ⟨some, -⟩
    · cases bad.symm.trans made
    · exact iff_of_false nofun some

end Pipeline

end ApiCanon
