import ApiCanon.Cache.Basic
import ApiCanon.Proofs.Collection.SortedMap

/-!
# What is kept in a store

A store returns nothing but what was put into it, whatever tiers it has, which entries have expired
and which of its calls fail.  So a property of keys and bytes that holds of everything that is put
into a store holds of everything in it (`put_holds`), and of all that is found (`get_holds`); the
cache in front of the store hands the same through (`Cache.get_holds`, `Cache.setValue_holds`).
-/

namespace ApiCanon

open Json (Value)

namespace Store

/-- All bytes in a store, in every tier and whether expired or not, are as `P` says for their
key. -/
def Holds (P : String → Bytes → Prop) : Store → Prop
  | memory m => ∀ k e, m.get? k = some e → P k e.value
  | table t => ∀ k r, t.get? k = some r → P k r.value
  | tiered front back => front.Holds P ∧ back.Holds P
  | unreliable _ _ s => s.Holds P

/-- Nothing is in a store. -/
def Empty (s : Store) : Prop := s.Holds fun _ _ => False

variable {P Q : String → Bytes → Prop} {α β : Type}

lemma Holds.imp {s : Store} (h : s.Holds P) (weaker : ∀ k b, P k b → Q k b) : s.Holds Q := by
  induction s with
  | memory m => exact fun k e he => weaker k e.value (h k e he)
  | table t => exact fun k r hr => weaker k r.value (h k r hr)
  | tiered front back ihf ihb => exact ⟨ihf h.1, ihb h.2⟩
  | unreliable fails calls s ih => exact ih h

/-! ## Operations -/

/-- The store after an operation holds what `P` allows, and its result, if any, is as `R` says. -/
structure Yields (P : String → Bytes → Prop) (R : α → Prop) (a : Answer α) : Prop where
  holds : a.2.Holds P
  result : ∀ x, a.1 = .ok x → R x

lemma attempt_yields {R : α → Prop} {fails : Nat → Bool} {calls : Nat} {s : Store} {a : Answer α}
    (h : s.Holds P) (ha : Yields P R a) : Yields P R (attempt fails calls s a) := by
  unfold attempt
  split_ifs
  · exact ⟨h, nofun⟩
  · exact ⟨ha.holds, ha.result⟩

lemma onFront_yields {R : α → Prop} {T : β → Prop} {a : Answer α} {back : Store}
    {next : α → Store → Answer β} (ha : Yields P R a) (hb : back.Holds P)
    (hn : ∀ x front, R x → front.Holds P → Yields P T (next x front)) :
    Yields P T (onFront a back next) := by
  obtain ⟨result, front⟩ := a
  cases result with
  | ok x => exact hn x front (ha.result x rfl) ha.holds
  | error e => exact ⟨⟨ha.holds, hb⟩, nofun⟩

lemma onBack_yields {R : α → Prop} {T : β → Prop} {a : Answer α} {front : Store}
    {next : α → Store → Answer β} (ha : Yields P R a) (hf : front.Holds P)
    (hn : ∀ x back, R x → back.Holds P → Yields P T (next x back)) :
    Yields P T (onBack a front next) := by
  obtain ⟨result, back⟩ := a
  cases result with
  | ok x => exact hn x back (ha.result x rfl) ha.holds
  | error e => exact ⟨⟨hf, ha.holds⟩, nofun⟩

lemma insert_holds {γ : Type} (value : γ → Bytes) {m : SortedMap γ} {key : String} {e : γ}
    (h : ∀ k x, m.get? k = some x → P k (value x)) (he : P key (value e)) :
    ∀ k x, (m.insert key e).get? k = some x → P k (value x) := by
  intro k x hx
  rw [SortedMap.get?_insert] at hx
  split_ifs at hx with hk
  · rw [hk, ← Option.some.inj hx]
    exact he
  · exact h k x hx

lemma erase_holds {γ : Type} (value : γ → Bytes) {m : SortedMap γ} {key : String}
    (h : ∀ k x, m.get? k = some x → P k (value x)) :
    ∀ k x, (m.erase key).get? k = some x → P k (value x) := by
  intro k x hx
  rw [SortedMap.get?_erase] at hx
  split_ifs at hx
  exact h k x hx

/-- What is put into a store is all that is new in it. -/
theorem put_holds {s : Store} {key : String} {e : CacheEntry} (h : s.Holds P)
    (he : P key e.value) : Yields P (fun _ => True) (s.put key e) := by
  induction s with
  | memory m => exact ⟨insert_holds CacheEntry.value h he, fun _ _ => trivial⟩
  | table t => exact ⟨insert_holds CacheRow.value h he, fun _ _ => trivial⟩
  | tiered front back ihf ihb =>
    refine onBack_yields (ihb h.2) h.1 fun _ back _ hb => ?_
    exact onFront_yields (ihf h.1) hb fun _ front _ hf => ⟨⟨hf, hb⟩, fun _ _ => trivial⟩
  | unreliable fails calls s ih => exact attempt_yields h (ih h)

/-- What is found in a store was in it, and nothing is new in it afterwards. -/
theorem get_holds {s : Store} (now : Timestamp) (key : String) (h : s.Holds P) :
    Yields P (fun entry => ∀ e ∈ entry, P key e.value) (s.get now key) := by
  induction s with
  | memory m =>
    rw [get]
    cases hm : m.get? key with
    | none => exact ⟨h, fun _ hx => Except.ok.inj hx ▸ nofun⟩
    | some e =>
      dsimp only
      split_ifs
      · exact ⟨erase_holds CacheEntry.value h, fun _ hx => Except.ok.inj hx ▸ nofun⟩
      · refine ⟨h, fun x hx e' he' => ?_⟩
        rw [← Except.ok.inj hx] at he'
        exact Option.some.inj he' ▸ h key e hm
  | table t =>
    rw [get]
    cases ht : t.get? key with
    | none => exact ⟨h, fun _ hx => Except.ok.inj hx ▸ nofun⟩
    | some r =>
      dsimp only
      split_ifs
      · exact ⟨erase_holds CacheRow.value h, fun _ hx => Except.ok.inj hx ▸ nofun⟩
      · refine ⟨h, fun x hx e' he' => ?_⟩
        rw [← Except.ok.inj hx] at he'
        exact Option.some.inj he' ▸ h key r ht
  | tiered front back ihf ihb =>
    refine onFront_yields (ihf h.1) h.2 fun entry front he hf => ?_
    cases entry with
    | some e => exact ⟨⟨hf, h.2⟩, fun x hx => Except.ok.inj hx ▸ he⟩
    | none =>
      refine onBack_yields (ihb h.2) hf fun entry back he hb => ?_
      cases entry with
      | none => exact ⟨⟨hf, hb⟩, fun _ hx => Except.ok.inj hx ▸ nofun⟩
      | some e =>
        -- what was found in the back is copied to the front
        refine onFront_yields (put_holds hf (he e rfl)) hb fun _ front _ hf => ?_
        exact ⟨⟨hf, hb⟩, fun x hx => Except.ok.inj hx ▸ he⟩
  | unreliable fails calls s ih => exact attempt_yields h (ih h)

end Store

/-! ## The cache -/

namespace Cache

variable {P : String → Bytes → Prop} {c : Cache}

lemma settle_store {α : Type} (c : Cache) (fallback : α) (a : Store.Answer α) :
    (c.settle fallback a).2.store = a.2 := by
  obtain ⟨result, store⟩ := a
  cases result <;> rfl

lemma settle_result {α : Type} (c : Cache) (fallback : α) (a : Store.Answer α) :
    (c.settle fallback a).1 = fallback ∨ a.1 = .ok (c.settle fallback a).1 := by
  obtain ⟨result, store⟩ := a
  cases result with
  | ok x => exact Or.inr rfl
  | error e => exact Or.inl rfl

lemma get_holds (now : Timestamp) (key : String) (h : c.store.Holds P) :
    (c.get now key).2.store.Holds P ∧ ∀ b ∈ (c.get now key).1, P key b := by
  have found := Store.get_holds now key h
  have store := settle_store c none (c.store.get now key)
  have result := settle_result c none (c.store.get now key)
  unfold get
  generalize c.settle none (c.store.get now key) = answer at store result ⊢
  obtain ⟨entry, c'⟩ := answer
  have holds : c'.store.Holds P := store ▸ found.holds
  cases entry with
  | none => exact ⟨holds, nofun⟩
  | some e =>
    refine ⟨holds, fun b hb => ?_⟩
    have he := result.resolve_left nofun
    exact Option.some.inj hb ▸ found.result _ he e rfl

lemma set_holds (now : Timestamp) {key : String} {b : Bytes} (ttl : Option Span)
    (h : c.store.Holds P) (hb : P key b) : (c.set now key b ttl).store.Holds P := by
  have put := (Store.put_holds (e := ⟨b, now, ttl.orElse fun _ => c.defaultTtl⟩) h hb).holds
  unfold set
  generalize c.store.put key ⟨b, now, ttl.orElse fun _ => c.defaultTtl⟩ = answer at put ⊢
  obtain ⟨result, store⟩ := answer
  cases result with
  | ok done => exact put
  | error e => exact put

/-- What is decoded is read in bytes that were put into the cache. -/
theorem getDecoded_holds {α : Type} (now : Timestamp) (key : String) (decode : Value → Option α)
    (h : c.store.Holds P) :
    (c.getDecoded now key decode).2.store.Holds P ∧
      ∀ a ∈ (c.getDecoded now key decode).1,
        ∃ b, P key b ∧ (valueOf? b).bind decode = some a := by
  obtain ⟨holds, found⟩ := get_holds now key h
  unfold getDecoded
  generalize c.get now key = answer at holds found ⊢
  obtain ⟨bytes, c'⟩ := answer
  cases bytes with
  | none => exact ⟨holds, nofun⟩
  | some b =>
    dsimp only
    cases decoded : (valueOf? b).bind decode with
    | none => exact ⟨holds, nofun⟩
    | some a => exact ⟨holds, fun a' ha => ⟨b, found b rfl, Option.some.inj ha ▸ decoded⟩⟩

theorem setValue_holds (now : Timestamp) {key : String} {v : Value} (ttl : Option Span)
    (h : c.store.Holds P) (hv : P key (Bytes.ofString v.compact)) :
    (c.setValue now key v ttl).store.Holds P :=
  set_holds now ttl h hv

end Cache

end ApiCanon
