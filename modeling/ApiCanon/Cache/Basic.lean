import ApiCanon.Binary.Basic
import ApiCanon.Cache.Store
import ApiCanon.Json.Printer
import ApiCanon.Json.Reader
import ApiCanon.Text.Literal

/-!
# The cache

The cache in front of a store.  A failure of the store never leaves it: a read that fails is a
miss, a write that fails does nothing, and both are counted.

Statistics: `hits` and `misses` count the reads that found bytes and those that did not,
`writes` the writes that the store accepted, `errors` the failures of the store, the bytes that
could not be decoded and the values that could not be written.
-/

namespace ApiCanon

open Json (Value)

/-- What has happened to a cache. -/
structure CacheStats where
  hits : Nat
  misses : Nat
  writes : Nat
  errors : Nat
  deriving DecidableEq, Repr, Inhabited

namespace CacheStats

/-- The part of the reads that found something, nothing if there were none. -/
def hitRate (s : CacheStats) : Binary.Finite :=
  let lookups := s.hits + s.misses
  if lookups = 0 then ⟨false, 0, 0⟩
  else (Binary.double.round false s.hits lookups).getD ⟨false, 0, 0⟩

def toJson (s : CacheStats) : Value :=
  .object
    [("hits", .ofNat s.hits), ("misses", .ofNat s.misses), ("writes", .ofNat s.writes),
      ("errors", .ofNat s.errors)]

/-- The statistics on one line. -/
def text (s : CacheStats) : String :=
  "CacheStats \x7b hits: " ++ toString s.hits ++ ", misses: " ++ toString s.misses ++
    ", writes: " ++ toString s.writes ++ ", errors: " ++ toString s.errors ++ " \x7d"

end CacheStats

/-- A store, the span for which entries are kept unless told otherwise, and the statistics. -/
structure Cache where
  store : Store
  defaultTtl : Option Span
  stats : CacheStats
  deriving Inhabited

/-- A cache that has not been used, over a store. -/
def Cache.over (store : Store) (defaultTtl : Option Span) : Cache :=
  ⟨store, defaultTtl, ⟨0, 0, 0, 0⟩⟩

namespace Cache

/-- The name of the store. -/
def backend (c : Cache) : String := c.store.name

/-- Counts an error. -/
def degraded (c : Cache) : Cache :=
  { c with stats := { c.stats with errors := c.stats.errors + 1 } }

/-- The outcome of an operation of the store, with a stand-in for the outcome of a failure. -/
def settle {α : Type} (c : Cache) (fallback : α) : Store.Answer α → α × Cache
  | (.ok a, store) => (a, { c with store := store })
  | (.error _, store) => (fallback, { c with store := store }.degraded)

/-! ## Operations -/

/-- The bytes of a key. -/
def get (now : Timestamp) (key : String) (c : Cache) : Option Bytes × Cache :=
  let (entry, c) := c.settle none (c.store.get now key)
  match entry with
  | some e => (some e.value, { c with stats := { c.stats with hits := c.stats.hits + 1 } })
  | none => (none, { c with stats := { c.stats with misses := c.stats.misses + 1 } })

/-- Keeps bytes under a key. -/
def set (now : Timestamp) (key : String) (value : Bytes) (ttl : Option Span) (c : Cache) : Cache :=
  let (written, c) := c.settle false <|
    match c.store.put key ⟨value, now, ttl.orElse fun _ => c.defaultTtl⟩ with
    | (.ok (), store) => (.ok true, store)
    | (.error e, store) => (.error e, store)
  if written then { c with stats := { c.stats with writes := c.stats.writes + 1 } } else c

def has (now : Timestamp) (key : String) (c : Cache) : Bool × Cache :=
  c.settle false (c.store.has now key)

def delete (key : String) (c : Cache) : Bool × Cache := c.settle false (c.store.delete key)

/-- Drops all entries; whether the store did so. -/
def clear (c : Cache) : Bool × Cache :=
  match c.store.clear with
  | (.ok (), store) => (true, { c with store := store })
  | (.error _, store) => (false, { c with store := store }.degraded)

def purge (now : Timestamp) (c : Cache) : Nat × Cache := c.settle 0 (c.store.purge now)

def size (c : Cache) : Nat × Cache := c.settle 0 c.store.size

/-! ## Decoded values -/

/-- The JSON value that bytes hold. -/
def valueOf? (b : Bytes) : Option Value :=
  match Bytes.decode b with
  | .error _ => none
  | .ok s => (Json.read s).toOption

/-- The value of a key, decoded; bytes that cannot be decoded count as an error. -/
def getDecoded {α : Type} (now : Timestamp) (key : String) (decode : Value → Option α)
    (c : Cache) : Option α × Cache :=
  match c.get now key with
  | (none, c) => (none, c)
  | (some b, c) =>
    match (valueOf? b).bind decode with
    | some a => (some a, c)
    | none => (none, c.degraded)

/-- Keeps what a value is written as under a key; a value that cannot be written counts as an
error. -/
def setEncoded (now : Timestamp) (key : String) (written : Option Bytes) (ttl : Option Span)
    (c : Cache) : Cache :=
  match written with
  | some b => c.set now key b ttl
  | none => c.degraded

/-- Keeps a value under a key as compact JSON, which there is for every value. -/
def setValue (now : Timestamp) (key : String) (v : Value) (ttl : Option Span) (c : Cache) : Cache :=
  c.setEncoded now key (some (Bytes.ofString v.compact)) ttl

/-- The cache on one line. -/
def text (c : Cache) : String :=
  let ttl := match c.defaultTtl with
    | some d => "Some(" ++ d.text ++ ")"
    | none => "None"
  "Cache \x7b backend: " ++ Text.literal c.backend ++ ", default_ttl: " ++ ttl ++
    ", stats: " ++ c.stats.text ++ " \x7d"

end Cache

end ApiCanon
