import ApiCanon.Batch.Timeline
import ApiCanon.Cache.Basic
import ApiCanon.Cache.Key
import ApiCanon.Source.Readers

/-!
# The pipeline

Reading through the cache.  A result is kept under the key of its source type, contents and
configuration, and only if the reading succeeded.  Equal contents at another place share the
entry: a result from the cache takes the origin of the request.

A reading looks into the cache twice, before and after it has become the only one for its key, so
that of several requests at a time for the same key only one is read.
-/

namespace ApiCanon

open Json (Value)

/-- The readers and the cache, and the numbers of the items handed to the service. -/
structure Pipeline where
  registry : Registry
  cache : Cache
  itemIds : Allocator
  /-- For how long results are kept, unless the cache is to decide. -/
  resultTtl : Option Span

namespace Pipeline

def start [Grammars] (cache : Cache) (resultTtl : Option Span) : Pipeline :=
  ⟨.defaults, cache, .start "item", resultTtl⟩

/-- The key of a request that can be cached: its contents are at hand and its tag is known. -/
def cacheKey? (p : Pipeline) (q : ReadRequest) : Option String :=
  match q.source.bytes? with
  | none => none
  | some b => if p.registry.supports q.tag then some (CacheKey.derive q.tag b q.config) else none

/-- The result in the cache, with the origin of the request. -/
def cached (now : Timestamp) (key : String) (q : ReadRequest) (p : Pipeline) :
    Option ReadResult × Pipeline :=
  let (hit, cache) := p.cache.getDecoded now key fun v => (ReadResult.decode v).toOption
  (hit.map fun r => { r with origin := q.source.origin? }, { p with cache := cache })

/-- Reads a source and keeps the result if it is a success. -/
def readFresh (now : Timestamp) (key : String) (q : ReadRequest) (p : Pipeline) :
    ReadResult × Pipeline :=
  let r := p.registry.read now q
  if r.succeeded then (r, { p with cache := p.cache.setValue now key r.toJson p.resultTtl })
  else (r, p)

/-- Reads a source through the cache. -/
def read (now : Timestamp) (q : ReadRequest) (p : Pipeline) : ReadResult × Pipeline :=
  match p.cacheKey? q with
  | none => (p.registry.read now q, p)
  | some key =>
    match p.cached now key q with
    | (some hit, p) => (hit, p)
    | (none, p) =>
      match p.cached now key q with
      | (some hit, p) => (hit, p)
      | (none, p) => p.readFresh now key q

/-- Reads several sources, each for itself. -/
def readMany (now : Timestamp) : List ReadRequest → Pipeline → List ReadResult × Pipeline
  | [], p => ([], p)
  | q :: rest, p =>
    let (r, p) := p.read now q
    let (rs, p) := readMany now rest p
    (r :: rs, p)

end Pipeline

end ApiCanon
