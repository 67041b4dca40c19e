import ApiCanon.Text.Bytes
import ApiCanon.Time.Timestamp

/-!
# Entries of the cache

An entry holds bytes, the moment of its insertion and the span for which it is kept, if that is
limited.  An entry has expired from its deadline on, the deadline included.  A deadline out of
the calendar is never reached.

Much can go wrong where entries are kept.  The cache in front of the store turns every failure of it
into a miss.
-/

namespace ApiCanon

/-- What is kept under a key. -/
structure CacheEntry where
  value : Bytes
  insertedAt : Timestamp
  ttl : Option Span
  deriving DecidableEq, Repr, Inhabited

namespace CacheEntry

/-- The moment from which on the entry counts as gone. -/
def expiresAt? (e : CacheEntry) : Option Timestamp := e.ttl.bind e.insertedAt.after?

/-- Whether the entry has expired at a moment. -/
def isExpiredAt (e : CacheEntry) (now : Timestamp) : Bool :=
  match e.expiresAt? with
  | some deadline => deadline.le now
  | none => false

theorem isExpiredAt_of_ttl_eq_none {e : CacheEntry} (h : e.ttl = none) (now : Timestamp) :
    e.isExpiredAt now = false := by
  simp [isExpiredAt, expiresAt?, h]

end CacheEntry

/-- An entry as a row of a table: moments and spans in whole milliseconds, and the deadline
computed once and for all. -/
structure CacheRow where
  value : Bytes
  insertedAt : Int
  ttl : Option Nat
  expiresAt : Option Int
  deriving DecidableEq, Repr, Inhabited

namespace CacheRow

/-- The longest span that a row holds, in milliseconds. -/
def longestTtl : Nat := Nat.pow 2 63 - 1

def ofEntry (e : CacheEntry) : CacheRow where
  value := e.value
  insertedAt := e.insertedAt.millis
  ttl := e.ttl.map fun d => min d.millis longestTtl
  expiresAt := e.expiresAt?.map Timestamp.millis

def toEntry (r : CacheRow) : CacheEntry :=
  ⟨r.value, .ofMillis r.insertedAt, r.ttl.map Span.ofMillis⟩

/-- Whether the row has expired at a moment in milliseconds. -/
def isExpiredAt (r : CacheRow) (now : Int) : Bool :=
  match r.expiresAt with
  | some deadline => deadline ≤ now
  | none => false

end CacheRow

/-! ## Failures -/

/-- A failure of the store. -/
inductive StoreError where
  /-- The data base refused a statement. -/
  | database (reason : String)
  /-- No connection could be had. -/
  | connection (reason : String)
  /-- A value could not be written as, or read from, its bytes. -/
  | serialization (reason : String)
  /-- The work was given up. -/
  | task (reason : String)
  /-- The store itself failed. -/
  | backend (reason : String)
  deriving DecidableEq, Repr, Inhabited

def StoreError.message : StoreError → String
  | database r => "SQLite error: " ++ r
  | connection r => "Connection pool error: " ++ r
  | serialization r => "Serialization error: " ++ r
  | task r => "Background task failed: " ++ r
  | backend r => "Cache backend error: " ++ r

end ApiCanon
