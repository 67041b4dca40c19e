import ApiCanon.Cache.Basic
import Mathlib.Tactic.Lemma
import Mathlib.Tactic.TypeStar

/-!
# Statistics of a cache

What the statistics of a cache say of the operations that it has been used for
(`Cache.stats_account`): `hits` and `misses` add up to the reads, `writes` are the writes that the
store accepted, and `errors` are the operations that failed.  An operation calls the store once at
most, and what it adds to the statistics follows from the answer (`Cache.Access.stats_after`).  So
the store may be any, it may fail at any time, and others may change it in between.

The hits are the reads that found bytes.  Bytes that cannot be decoded are found and yet not
returned, so that there may be more hits than values that were returned
(`Cache.stats_differ_of_undecodable`).
-/

namespace ApiCanon

/-- Statistics added up. -/
def CacheStats.add (s t : CacheStats) : CacheStats :=
  ⟨s.hits + t.hits, s.misses + t.misses, s.writes + t.writes, s.errors + t.errors⟩

lemma CacheStats.zero_add (s : CacheStats) : CacheStats.add ⟨0, 0, 0, 0⟩ s = s := by
  simp only [add, Nat.zero_add]

lemma CacheStats.add_assoc (s t u : CacheStats) : (s.add t).add u = s.add (t.add u) := by
  simp only [add, Nat.add_assoc]

namespace Cache

open Json (Value)

/-! ## What operations add -/

variable {α : Type} {c : Cache}

/-- A failure of the store counts as an error. -/
lemma stats_settle (fallback : α) (a : Store.Answer α) :
    (c.settle fallback a).2.stats = c.stats.add ⟨0, 0, 0, (!a.1.isOk).toNat⟩ := by
  obtain ⟨result, store⟩ := a
  cases result <;> rfl

/-- A read is a hit or a miss. -/
lemma stats_get (now : Timestamp) (key : String) :
    (c.get now key).2.stats = c.stats.add ⟨(c.get now key).1.isSome.toNat,
      (!(c.get now key).1.isSome).toNat, 0, (!(c.store.get now key).1.isOk).toNat⟩ := by
  unfold get
  obtain ⟨result, store⟩ := c.store.get now key
  cases result with
  | error f => rfl
  | ok entry => cases entry <;> rfl

/-- Bytes that were found cannot be decoded. -/
def garbled (decode : Value → Option α) (found : Option Bytes) : Bool :=
  found.any fun b => ((valueOf? b).bind decode).isNone

/-- Bytes that were found are returned as a value, or they cannot be decoded. -/
lemma isSome_get (now : Timestamp) (key : String) (decode : Value → Option α) :
    (c.get now key).1.isSome =
      (garbled decode (c.get now key).1 || (c.getDecoded now key decode).1.isSome) := by
  unfold getDecoded
  obtain ⟨found, c'⟩ := c.get now key
  cases found with
  | none => rfl
  | some b =>
    dsimp only [garbled, Option.any]
    cases (valueOf? b).bind decode <;> rfl

/-- No value comes of bytes that cannot be decoded. -/
lemma isSome_getDecoded_of_garbled {now : Timestamp} {key : String} {decode : Value → Option α}
    (h : garbled decode (c.get now key).1 = true) :
    (c.getDecoded now key decode).1.isSome = false := by
  unfold getDecoded
  generalize c.get now key = answer at h ⊢
  obtain ⟨found, c'⟩ := answer
  cases found with
  | none => rfl
  | some b =>
    dsimp only
    rw [Option.isNone_iff_eq_none.1 h]
    rfl

/-- A read of a decoded value counts as a read of the bytes; bytes that cannot be decoded count as
an error as well. -/
lemma stats_getDecoded (now : Timestamp) (key : String) (decode : Value → Option α) :
    (c.getDecoded now key decode).2.stats = c.stats.add ⟨(c.get now key).1.isSome.toNat,
      (!(c.get now key).1.isSome).toNat, 0,
      (garbled decode (c.get now key).1 || !(c.store.get now key).1.isOk).toNat⟩ := by
  unfold getDecoded get
  obtain ⟨result, store⟩ := c.store.get now key
  cases result with
  | error f => rfl
  | ok entry =>
    cases entry with
    | none => rfl
    | some e =>
      dsimp only [settle, garbled, Option.any]
      cases (valueOf? e.value).bind decode <;> rfl

/-- A write that the store accepts is counted. -/
lemma stats_set (now : Timestamp) (key : String) (value : Bytes) (ttl : Option Span) :
    let accepted := (c.store.put key ⟨value, now, ttl.orElse fun _ => c.defaultTtl⟩).1.isOk
    (c.set now key value ttl).stats = c.stats.add ⟨0, 0, accepted.toNat, (!accepted).toNat⟩ := by
  unfold set
  obtain ⟨result, store⟩ := c.store.put key ⟨value, now, ttl.orElse fun _ => c.defaultTtl⟩
  cases result <;> rfl

lemma stats_clear :
    c.clear.2.stats = c.stats.add ⟨0, 0, 0, (!c.store.clear.1.isOk).toNat⟩ := by
  unfold clear
  obtain ⟨result, store⟩ := c.store.clear
  cases result <;> rfl

/-! ## Operations -/

/-- An operation of a cache.  A value that is read may be decoded, by whatever decoder; a value that
is written may be encoded beforehand, which need not succeed. -/
inductive Operation : Type 1 where
  | get (key : String)
  | set (key : String) (value : Bytes) (ttl : Option Span)
  | has (key : String)
  | delete (key : String)
  | clear
  | purge
  | size
  | getDecoded {α : Type} (key : String) (decode : Value → Option α)
  | setEncoded (key : String) (written : Option Bytes) (ttl : Option Span)

namespace Operation

def isRead : Operation → Bool
  | get _ => true
  | getDecoded _ _ => true
  | _ => false

def isWrite : Operation → Bool
  | set _ _ _ => true
  | setEncoded _ _ _ => true
  | _ => false

end Operation

/-- An operation on a cache at a moment. -/
structure Access : Type 1 where
  cache : Cache
  now : Timestamp
  operation : Operation

namespace Access

/-- The cache after the operation. -/
def after (a : Access) : Cache :=
  match a.operation with
  | .get key => (a.cache.get a.now key).2
  | .set key value ttl => a.cache.set a.now key value ttl
  | .has key => (a.cache.has a.now key).2
  | .delete key => (a.cache.delete key).2
  | .clear => a.cache.clear.2
  | .purge => (a.cache.purge a.now).2
  | .size => a.cache.size.2
  | .getDecoded key decode => (a.cache.getDecoded a.now key decode).2
  | .setEncoded key written ttl => a.cache.setEncoded a.now key written ttl

/-- The store is called and does not fail; it is not called for a value that cannot be written. -/
def answered (a : Access) : Bool :=
  let accepts key value (ttl : Option Span) :=
    (a.cache.store.put key ⟨value, a.now, ttl.orElse fun _ => a.cache.defaultTtl⟩).1.isOk
  match a.operation with
  | .get key => (a.cache.store.get a.now key).1.isOk
  | .set key value ttl => accepts key value ttl
  | .has key => (a.cache.store.has a.now key).1.isOk
  | .delete key => (a.cache.store.delete key).1.isOk
  | .clear => a.cache.store.clear.1.isOk
  | .purge => (a.cache.store.purge a.now).1.isOk
  | .size => a.cache.store.size.1.isOk
  | .getDecoded key _ => (a.cache.store.get a.now key).1.isOk
  | .setEncoded key written ttl => written.any fun value => accepts key value ttl

/-- A read returns a value. -/
def returned (a : Access) : Bool :=
  match a.operation with
  | .get key => (a.cache.get a.now key).1.isSome
  | .getDecoded key decode => (a.cache.getDecoded a.now key decode).1.isSome
  | _ => false

/-- A read returns nothing. -/
def missed (a : Access) : Bool := a.operation.isRead && !a.returned

/-- A read finds bytes that cannot be decoded. -/
def undecodable (a : Access) : Bool :=
  match a.operation with
  | .getDecoded key decode => garbled decode (a.cache.get a.now key).1
  | _ => false

/-- A read finds bytes. -/
def found (a : Access) : Bool := a.undecodable || a.returned

/-- A read finds no bytes. -/
def absent (a : Access) : Bool := a.operation.isRead && !a.found

/-- The store accepts a write. -/
def accepted (a : Access) : Bool := a.operation.isWrite && a.answered

/-- The store fails, or a value cannot be written, or bytes cannot be decoded. -/
def failed (a : Access) : Bool := a.undecodable || !a.answered

/-- What an operation adds to the statistics. -/
def tally (a : Access) : CacheStats :=
  ⟨a.found.toNat, a.absent.toNat, a.accepted.toNat, a.failed.toNat⟩

/-- **What one operation adds** depends on what it finds and on whether the store answers. -/
theorem stats_after (a : Access) : a.after.stats = a.cache.stats.add a.tally := by
  obtain ⟨c, now, operation⟩ := a
  cases operation with
  | get key => exact stats_get now key
  | set key value ttl => exact stats_set now key value ttl
  | has key => exact stats_settle false (c.store.has now key)
  | delete key => exact stats_settle false (c.store.delete key)
  | clear => exact stats_clear
  | purge => exact stats_settle 0 (c.store.purge now)
  | size => exact stats_settle 0 c.store.size
  | getDecoded key decode =>
    refine (stats_getDecoded now key decode).trans ?_
    rw [isSome_get now key decode]
    rfl
  | setEncoded key written ttl =>
    cases written with
    | none => rfl
    | some value => exact stats_set now key value ttl

/-! ### What is found and what is returned -/

lemma not_returned_of_undecodable {a : Access} (h : a.undecodable = true) :
    a.returned = false := by
  obtain ⟨c, now, operation⟩ := a
  cases operation with
  | getDecoded key decode => exact isSome_getDecoded_of_garbled h
  | _ => cases h

/-- Only reads find anything. -/
lemma isRead_of_found {a : Access} (h : a.found = true) : a.operation.isRead = true := by
  obtain ⟨c, now, operation⟩ := a
  cases operation with
  | get | getDecoded => rfl
  | _ => cases h

/-- A read finds bytes or not. -/
lemma toNat_isRead (a : Access) : a.operation.isRead.toNat = a.found.toNat + a.absent.toNat := by
  unfold absent
  cases h : a.found with
  | false => rw [Bool.not_false, Bool.and_true, Bool.toNat_false, Nat.zero_add]
  | true => rw [isRead_of_found h]; rfl

/-- Of the bytes that are found, those that can be decoded are returned. -/
lemma toNat_found (a : Access) : a.found.toNat = a.returned.toNat + a.undecodable.toNat := by
  unfold found
  cases h : a.undecodable with
  | false => rfl
  | true => rw [not_returned_of_undecodable h]; rfl

/-- Nothing is returned if no bytes are found or if they cannot be decoded. -/
lemma toNat_missed (a : Access) : a.missed.toNat = a.absent.toNat + a.undecodable.toNat := by
  unfold missed absent
  cases h : a.undecodable with
  | false => rw [found, h, Bool.false_or]; rfl
  | true =>
    have found : a.found = true := by rw [found, h, Bool.true_or]
    rw [found, isRead_of_found found, not_returned_of_undecodable h]
    rfl

end Access

/-! ## Counting -/

lemma countP_cons_toNat {β : Type*} (p : β → Bool) (b : β) (l : List β) :
    (b :: l).countP p = (p b).toNat + l.countP p := by
  rw [List.countP_cons, Nat.add_comm]
  cases p b <;> rfl

/-- Who is in one of two disjoint parts is counted in one of them. -/
lemma countP_eq_add {β : Type*} {p q r : β → Bool}
    (h : ∀ b, (p b).toNat = (q b).toNat + (r b).toNat) (l : List β) :
    l.countP p = l.countP q + l.countP r := by
  induction l with
  | nil => rfl
  | cons b l ih =>
    rw [countP_cons_toNat, countP_cons_toNat, countP_cons_toNat, h, ih]
    omega

/-- What operations add to the statistics. -/
def total (l : List Access) : CacheStats :=
  ⟨l.countP Access.found, l.countP Access.absent, l.countP Access.accepted, l.countP Access.failed⟩

lemma total_cons (a : Access) (l : List Access) : total (a :: l) = a.tally.add (total l) := by
  simp only [total, countP_cons_toNat]
  rfl

/-! ## Runs -/

/-- The use of a cache: what others do to the store before, and an operation at a moment.  Since
others may leave any store behind, an operation may get any answer. -/
structure Use : Type 1 where
  others : Store → Store
  now : Timestamp
  operation : Operation

/-- The operation on the cache as others have left it. -/
def Use.access (u : Use) (c : Cache) : Access :=
  ⟨{ c with store := u.others c.store }, u.now, u.operation⟩

/-- The operations of a run, each on the cache that the ones before have left. -/
def accesses (c : Cache) : List Use → List Access
  | [] => []
  | u :: uses => u.access c :: accesses (u.access c).after uses

/-- The cache after a run. -/
def used (c : Cache) : List Use → Cache
  | [] => c
  | u :: uses => used (u.access c).after uses

/-- The statistics after a run, from those before it and its operations. -/
theorem stats_used (c : Cache) (uses : List Use) :
    (c.used uses).stats = c.stats.add (total (c.accesses uses)) := by
  induction uses generalizing c with
  | nil => rfl
  | cons u uses ih =>
    rw [used, ih, Access.stats_after, accesses, total_cons, CacheStats.add_assoc]
    rfl

/-- Runs have the operations that they are made of. -/
lemma countP_accesses (c : Cache) (uses : List Use) (p : Operation → Bool) :
    (c.accesses uses).countP (fun a => p a.operation) = uses.countP fun u => p u.operation := by
  induction uses generalizing c with
  | nil => rfl
  | cons u uses ih =>
    rw [accesses, countP_cons_toNat, countP_cons_toNat, ih]
    rfl

/-- **The statistics account for the operations** of every run on every cache that has not been
used, whatever the store answers.  The hits are the reads that returned a value together with those
that found bytes which cannot be decoded; the misses and these are the reads that returned nothing.
Hits and misses are all reads, the writes are those that the store accepted, and the errors are the
operations that failed.  So hits and misses tell what was returned exactly if all bytes that were
found could be decoded. -/
theorem stats_account (store : Store) (defaultTtl : Option Span) (uses : List Use) :
    let c := (Cache.over store defaultTtl).used uses
    let l := (Cache.over store defaultTtl).accesses uses
    c.stats.hits = l.countP Access.returned + l.countP Access.undecodable ∧
    c.stats.misses + l.countP Access.undecodable = l.countP Access.missed ∧
    c.stats.hits + c.stats.misses = uses.countP (·.operation.isRead) ∧
    c.stats.writes = l.countP Access.accepted ∧
    c.stats.errors = l.countP Access.failed ∧
    (c.stats.hits = l.countP Access.returned ∧ c.stats.misses = l.countP Access.missed ↔
      ∀ a ∈ l, a.undecodable = false) := by
  intro c l
  have stats : c.stats = total l := by
    rw [stats_used]
    exact CacheStats.zero_add _
  have found : l.countP Access.found = l.countP Access.returned + l.countP Access.undecodable :=
    countP_eq_add Access.toNat_found l
  have missed : l.countP Access.missed = l.countP Access.absent + l.countP Access.undecodable :=
    countP_eq_add Access.toNat_missed l
  have reads : uses.countP (·.operation.isRead) = l.countP Access.found + l.countP Access.absent :=
    (countP_accesses _ uses _).symm.trans (countP_eq_add Access.toNat_isRead l)
  have decoded : (∀ a ∈ l, a.undecodable = false) ↔ l.countP Access.undecodable = 0 := by
    simp only [List.countP_eq_zero, Bool.not_eq_true]
  rw [stats, decoded]
  dsimp only [total]
  refine ⟨found, missed.symm, reads.symm, rfl, rfl, ?_⟩
  -- either equation alone says that nothing undecodable was found
  constructor
  · rintro ⟨hits, -⟩
    omega
  · intro none
    exact ⟨by omega, by omega⟩

/-- **Hits need not be what was returned**: bytes that cannot be decoded are a hit and an error,
while nothing is returned. -/
theorem stats_differ_of_undecodable :
    let uses : List Use := [⟨id, default, .set "bad" (Bytes.ofString "not json") none⟩,
      ⟨id, default, .getDecoded "bad" some⟩]
    let c := (Cache.over (.memory .empty) none).used uses
    let l := (Cache.over (.memory .empty) none).accesses uses
    c.stats = ⟨1, 0, 1, 1⟩ ∧ l.countP Access.returned = 0 ∧ l.countP Access.missed = 1 ∧
      ¬(c.stats.hits = l.countP Access.returned ∧ c.stats.misses = l.countP Access.missed) := by
  decide +kernel

end Cache

end ApiCanon
