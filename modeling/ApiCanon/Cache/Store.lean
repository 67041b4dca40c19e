import ApiCanon.Cache.Entry
import ApiCanon.Collection.SortedMap

/-!
# Stores

Where the entries of the cache are kept: in memory, in a table, or in two tiers of which the
front one is asked first.  An operation reads the clock once.  It may fail, and then it may have
changed the store before, so that an operation yields its result and the store after it.

Entries that have expired are not returned.  They are dropped when they are asked for, and by
`purge`; until then they count in `size`.

A tiered store asks the front tier first, then the back tier, and copies what it finds there to
the front as it is, so that it expires at the same moment.  It writes to the back tier first.
-/

namespace ApiCanon

/-- A store of entries by key. -/
inductive Store where
  | memory (entries : SortedMap CacheEntry)
  | table (rows : SortedMap CacheRow)
  | tiered (front back : Store)
  /-- A store of which some calls fail, without effect: those whose numbers the plan names. -/
  | unreliable (fails : Nat → Bool) (calls : Nat) (store : Store)

namespace Store

instance : Inhabited Store := ⟨memory .empty⟩

/-- A store that fails on every call. -/
def broken : Store := unreliable (fun _ => true) 0 (memory .empty)

/-- The name of the kind of store. -/
def name : Store → String
  | memory _ => "memory"
  | table _ => "sqlite"
  | tiered _ _ => "tiered"
  | unreliable _ _ _ => "broken"

/-- The failure of an unreliable store. -/
def outage : StoreError := .backend "disk unplugged"

/-- What an operation comes to. -/
abbrev Answer (α : Type) := Except StoreError α × Store

/-- A call of an unreliable store. -/
def attempt {α : Type} (fails : Nat → Bool) (calls : Nat) (store : Store)
    (operation : Answer α) : Answer α :=
  if fails calls then (.error outage, unreliable fails (calls + 1) store)
  else (operation.1, unreliable fails (calls + 1) operation.2)

/-- Goes on with the result of the front tier, or gives up if there is none. -/
def onFront {α β : Type} (a : Answer α) (back : Store) (next : α → Store → Answer β) : Answer β :=
  match a with
  | (.ok x, front) => next x front
  | (.error f, front) => (.error f, tiered front back)

/-- Goes on with the result of the back tier, or gives up if there is none. -/
def onBack {α β : Type} (a : Answer α) (front : Store) (next : α → Store → Answer β) : Answer β :=
  match a with
  | (.ok x, back) => next x back
  | (.error f, back) => (.error f, tiered front back)

/-! ## Operations -/

/-- Puts an entry under a key, in place of the one that is there. -/
def put (key : String) (e : CacheEntry) : Store → Answer Unit
  | memory m => (.ok (), memory (m.insert key e))
  | table t => (.ok (), table (t.insert key (.ofEntry e)))
  | tiered front back =>
    onBack (back.put key e) front fun _ back =>
      onFront (front.put key e) back fun _ front => (.ok (), tiered front back)
  | unreliable fails calls s => attempt fails calls s (s.put key e)

/-- The entry of a key, if it has one that has not expired. -/
def get (now : Timestamp) (key : String) : Store → Answer (Option CacheEntry)
  | memory m =>
    match m.get? key with
    | none => (.ok none, memory m)
    | some e =>
      if e.isExpiredAt now then (.ok none, memory (m.erase key)) else (.ok (some e), memory m)
  | table t =>
    match t.get? key with
    | none => (.ok none, table t)
    | some r =>
      if r.isExpiredAt now.millis then (.ok none, table (t.erase key))
      else (.ok (some r.toEntry), table t)
  | tiered front back =>
    onFront (front.get now key) back fun
      | some e, front => (.ok (some e), tiered front back)
      | none, front =>
        onBack (back.get now key) front fun
          | none, back => (.ok none, tiered front back)
          | some e, back =>
            onFront (front.put key e) back fun _ front => (.ok (some e), tiered front back)
  | unreliable fails calls s => attempt fails calls s (s.get now key)

/-- Whether a key has an entry that has not expired. -/
def has (now : Timestamp) (key : String) : Store → Answer Bool
  | memory m =>
    match m.get? key with
    | none => (.ok false, memory m)
    | some e =>
      if e.isExpiredAt now then (.ok false, memory (m.erase key)) else (.ok true, memory m)
  | table t =>
    match t.get? key with
    | none => (.ok false, table t)
    | some r =>
      if r.isExpiredAt now.millis then (.ok false, table (t.erase key)) else (.ok true, table t)
  | tiered front back =>
    onFront (front.has now key) back fun
      | true, front => (.ok true, tiered front back)
      | false, front =>
        onBack (back.has now key) front fun b back => (.ok b, tiered front back)
  | unreliable fails calls s => attempt fails calls s (s.has now key)

/-- Drops the entry of a key; whether there was one, expired or not. -/
def delete (key : String) : Store → Answer Bool
  | memory m => (.ok (m.contains key), memory (m.erase key))
  | table t => (.ok (t.contains key), table (t.erase key))
  | tiered front back =>
    onFront (front.delete key) back fun inFront front =>
      onBack (back.delete key) front fun inBack back => (.ok (inFront || inBack), tiered front back)
  | unreliable fails calls s => attempt fails calls s (s.delete key)

/-- Drops all entries. -/
def clear : Store → Answer Unit
  | memory _ => (.ok (), memory .empty)
  | table _ => (.ok (), table .empty)
  | tiered front back =>
    onFront front.clear back fun _ front =>
      onBack back.clear front fun _ back => (.ok (), tiered front back)
  | unreliable fails calls s => attempt fails calls s s.clear

/-- Drops the entries that have expired; how many they were, in tiers the greater number. -/
def purge (now : Timestamp) : Store → Answer Nat
  | memory m =>
    let live := m.filter fun _ e => !e.isExpiredAt now
    (.ok (m.size - live.size), memory live)
  | table t =>
    let live := t.filter fun _ r => !r.isExpiredAt now.millis
    (.ok (t.size - live.size), table live)
  | tiered front back =>
    onFront (front.purge now) back fun inFront front =>
      onBack (back.purge now) front fun inBack back =>
        (.ok (max inFront inBack), tiered front back)
  | unreliable fails calls s => attempt fails calls s (s.purge now)

/-- The number of entries, expired ones included; in tiers that of the back tier, which holds
what the front tier holds. -/
def size : Store → Answer Nat
  | memory m => (.ok m.size, memory m)
  | table t => (.ok t.size, table t)
  | tiered front back => onBack back.size front fun n back => (.ok n, tiered front back)
  | unreliable fails calls s => attempt fails calls s s.size

end Store

end ApiCanon
