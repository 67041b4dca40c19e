import ApiCanon.Pipeline.Basic

/-!
# Enhancement

The endpoints of a description are handed to the service one by one, as the items of a batch,
and what it writes is put into a new description.  What it wrote before is in the cache, under a
key of the endpoint and the context; such an endpoint is no item of the batch.  An endpoint whose
item fails, or is answered without a text, stays as it is.
-/

namespace ApiCanon

open Json (Value)

/-- An endpoint handed to the service. -/
structure PendingText where
  itemId : String
  endpoint : EndpointKey
  cacheKey : String
  deriving DecidableEq, Repr, Inhabited

/-- What has become of the endpoints of a description. -/
structure Enhancement where
  ast : Ast
  /-- The texts written for endpoints, the last one for a key counting. -/
  texts : List (EndpointKey × String)
  ledger : Ledger
  /-- The number of texts found in the cache. -/
  cached : Nat
  /-- The number of calls to the service. -/
  calls : Nat
  deriving Inhabited

/-- What the cache and the batch are asked for a description. -/
structure EnhancementPlan where
  texts : List (EndpointKey × String)
  cached : Nat
  items : List BatchItem
  pending : List PendingText
  deriving Inhabited

namespace Pipeline

/-- Looks for the text of an endpoint in the cache, or plans an item for it. -/
def planOne (now : Timestamp) (context : Option Value) (e : Endpoint) (plan : EnhancementPlan)
    (p : Pipeline) : EnhancementPlan × Pipeline :=
  let key := CacheKey.enhancement e context
  let (hit, cache) := p.cache.getDecoded now key Value.asString?
  let p := { p with cache := cache }
  match hit with
  | some text =>
    ({ plan with texts := plan.texts ++ [(e.key, text)], cached := plan.cached + 1 }, p)
  | none =>
    let (id, ids) := p.itemIds.next
    ({ plan with
        items := plan.items ++ [⟨id, .enhance, e.toJson, context⟩]
        pending := plan.pending ++ [⟨id, e.key, key⟩] },
      { p with itemIds := ids })

/-- Plans the endpoints one after another. -/
def plan (now : Timestamp) (context : Option Value) :
    List Endpoint → EnhancementPlan → Pipeline → EnhancementPlan × Pipeline
  | [], plan, p => (plan, p)
  | e :: r, soFar, p =>
    let (soFar, p) := p.planOne now context e soFar
    plan now context r soFar p

/-- The text that an outcome brings. -/
def textOf? (o : ItemOutcome) : Option String :=
  o.ending.response?.bind fun r => r.result.stringField? "description"

/-- Keeps the texts of the outcomes in the cache, and adds them to those at hand. -/
def collect (now : Timestamp) (pending : List PendingText) :
    List ItemOutcome → List (EndpointKey × String) → Pipeline →
      List (EndpointKey × String) × Pipeline
  | [], texts, p => (texts, p)
  | o :: r, texts, p =>
    match pending.find? fun t => t.itemId == o.id, textOf? o with
    | some t, some text =>
      let p := { p with cache := p.cache.setValue now t.cacheKey (.string text) p.resultTtl }
      collect now pending r (texts ++ [(t.endpoint, text)]) p
    | _, _ => collect now pending r texts p

/-- Has the endpoints of a description written about. -/
def enhance (now : Timestamp) (ast : Ast) (service : Service) (options : BatchOptions)
    (context : Option Value) (p : Pipeline) : Except AppError Enhancement × Pipeline :=
  let (plan, p) := p.plan now context ast.endpoints default
  match Batch.make plan.items options with
  | .error e => (.error e, p)
  | .ok b =>
    let t := Timeline.complete service b
    let ledger := t.run.ledger b.id
    let (texts, p) := p.collect now plan.pending ledger.outcomes plan.texts
    (.ok ⟨ast.withEnhancements texts, texts, ledger, plan.cached, t.calls⟩, p)

end Pipeline

end ApiCanon
