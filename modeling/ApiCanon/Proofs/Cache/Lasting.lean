import ApiCanon.Cache.Basic
import ApiCanon.Proofs.Cache.Tiers
import Mathlib.Logic.Function.Basic

/-!
# Caches that last

A store lasts if it accepts every write, and every read finds what was written last (`Store.Lasts`).
What it is made of plays no part: it may be a store in memory, in tiers or behind calls that might
have failed, as long as it does what a store in memory does and nothing is limited in time
(`Store.lasts_of_follows`).  The cache in front of such a store answers from what has been kept
(`Cache.getDecoded_lasts`, `Cache.setValue_lasts`).
-/

namespace ApiCanon

open Json (Value)

/-- What is kept under each key. -/
abbrev Records := String → Option Bytes

namespace Store

/-- A relation between stores and what they keep.  Reads are answered by it and do not change what
is kept; writes with a certain span do, and all of them are accepted. -/
structure Remembering (ttl : Option Span) (R : Store → Records → Prop) : Prop where
  get : ∀ {s m}, R s m → ∀ now key, ∃ e s', s.get now key = (.ok e, s') ∧
    e.map CacheEntry.value = m key ∧ R s' m
  put : ∀ {s m}, R s m → ∀ now key b, ∃ s', s.put key ⟨b, now, ttl⟩ = (.ok (), s') ∧
    R s' (Function.update m key (some b))

/-- A store keeps something, and whatever is written to it with a certain span, for all calls to
come. -/
def Lasts (ttl : Option Span) (s : Store) (m : Records) : Prop := ∃ R, Remembering ttl R ∧ R s m

variable {s : Store} {m : SortedMap CacheEntry}

/-- What a map of entries keeps. -/
def records (m : SortedMap CacheEntry) : Records := fun key => (m.get? key).map CacheEntry.value

lemma records_insert (m : SortedMap CacheEntry) (key : String) (e : CacheEntry) :
    records (m.insert key e) = Function.update (records m) key (some e.value) := by
  funext k
  by_cases hk : k = key
  · simp [records, hk]
  · simp [records, hk, SortedMap.get?_insert]

/-- No entry is limited in time. -/
def Unlimited (m : SortedMap CacheEntry) : Prop := ∀ key e, m.get? key = some e → e.ttl = none

lemma Unlimited.live? (unlimited : Unlimited m) (now : Timestamp) (key : String) :
    live? now key m = m.get? key := by
  cases found : m.get? key with
  | none => simp [Store.live?, found]
  | some e =>
    have live := CacheEntry.isExpiredAt_of_ttl_eq_none (unlimited key e found) now
    exact live?_eq_some_iff.2 ⟨found, live⟩

lemma Unlimited.settled (unlimited : Unlimited m) (now : Timestamp) (key : String) :
    settled now key m = m := by
  refine SortedMap.ext_get? fun k => ?_
  rw [get?_settled, unlimited.live?]
  split_ifs with hk
  · rw [hk]
  · rfl

lemma Unlimited.insert (unlimited : Unlimited m) (key : String) {e : CacheEntry}
    (lasting : e.ttl = none) : Unlimited (m.insert key e) := by
  intro k e' he'
  rw [SortedMap.get?_insert] at he'
  split_ifs at he'
  · exact Option.some.inj he' ▸ lasting
  · exact unlimited k e' he'

/-- A store that does what a store in memory does lasts as long as nothing is limited in time. -/
theorem lasts_of_follows (h : s.Follows m) (unlimited : Unlimited m) :
    s.Lasts none (records m) := by
  refine ⟨fun s r => ∃ m, s.Follows m ∧ Unlimited m ∧ r = records m, ⟨?_, ?_⟩,
    m, h, unlimited, rfl⟩
  · rintro s _ ⟨m, follows, unlimited, rfl⟩ now key
    obtain ⟨s', found, next⟩ := follows.get now key
    rw [unlimited.live?] at found
    rw [unlimited.settled] at next
    exact ⟨_, s', found, rfl, m, next, unlimited, rfl⟩
  · rintro s _ ⟨m, follows, unlimited, rfl⟩ now key b
    obtain ⟨s', done, next⟩ := follows.put key ⟨b, now, none⟩
    exact ⟨s', done, m.insert key ⟨b, now, none⟩, next, unlimited.insert key rfl,
      (records_insert m key ⟨b, now, none⟩).symm⟩

lemma lasts_memory_empty : (memory .empty).Lasts none fun _ => none :=
  lasts_of_follows (memory_follows .empty) nofun

end Store

namespace Cache

/-- A cache keeps something, and whatever is written to it with a certain span. -/
def Lasts (ttl : Option Span) (c : Cache) (m : Records) : Prop :=
  c.store.Lasts (ttl.orElse fun _ => c.defaultTtl) m

variable {ttl : Option Span} {c : Cache} {m : Records}

lemma get_lasts (h : c.Lasts ttl m) (now : Timestamp) (key : String) :
    (c.get now key).1 = m key ∧ (c.get now key).2.Lasts ttl m := by
  obtain ⟨R, remembering, related⟩ := h
  obtain ⟨e, s', found, same, next⟩ := remembering.get related now key
  rw [Cache.get, found, settle, ← same]
  cases e with
  | none => exact ⟨rfl, R, remembering, next⟩
  | some e => exact ⟨rfl, R, remembering, next⟩

/-- What is found is what is kept, decoded. -/
theorem getDecoded_lasts {α : Type} (h : c.Lasts ttl m) (now : Timestamp) (key : String)
    (decode : Value → Option α) :
    (c.getDecoded now key decode).1 = (m key).bind (fun b => (valueOf? b).bind decode) ∧
      (c.getDecoded now key decode).2.Lasts ttl m := by
  obtain ⟨found, next⟩ := get_lasts h now key
  unfold getDecoded
  generalize c.get now key = answer at found next ⊢
  obtain ⟨bytes, c'⟩ := answer
  obtain rfl : bytes = m key := found
  cases m key with
  | none => exact ⟨rfl, next⟩
  | some b =>
    dsimp only [Option.bind_some]
    cases (valueOf? b).bind decode with
    | none => exact ⟨rfl, next⟩
    | some a => exact ⟨rfl, next⟩

/-- What is written is kept. -/
theorem setValue_lasts (h : c.Lasts ttl m) (now : Timestamp) (key : String) (v : Value) :
    (c.setValue now key v ttl).Lasts ttl
      (Function.update m key (some (Bytes.ofString v.compact))) := by
  obtain ⟨R, remembering, related⟩ := h
  obtain ⟨s', done, next⟩ := remembering.put related now key (Bytes.ofString v.compact)
  rw [setValue, setEncoded, set, done, settle]
  exact ⟨R, remembering, next⟩

end Cache

end ApiCanon
