import ApiCanon.Proofs.Cache.Rows
import ApiCanon.Proofs.Cache.Tiers
import Mathlib.Data.List.Induction

/-!
# Expired entries are never served

In memory, in a table or in tiers of both, nothing is found under a key from the deadline of the
entry on that was last put there (`expired_never_served`), with moments and spans of whatever
precision.  A restart may lose what is in memory in between, so that entries come to the front tier
from a table, in the form that is read back from their rows.

What carries the proof is that every part of a store keeps under a key, if anything, the entry last
put there or what is read back from its row (`run_all`).  Neither of the two outlives the entry, and
nor do their rows.
-/

namespace ApiCanon

namespace Store

/-! ## Runs with restarts -/

/-- What happens to a store: calls, each with its moment, and restarts. -/
inductive Event where
  | call (now : Timestamp) (c : Call)
  | restart

/-- A store after a restart: what is in memory is lost. -/
def restarted : Store → Store
  | memory _ => memory .empty
  | table t => table t
  | tiered front back => tiered front.restarted back.restarted
  | unreliable fails calls s => unreliable fails calls s.restarted

def step (s : Store) : Event → Store
  | .call now c => (s.call now c).2
  | .restart => s.restarted

/-- The store after some events. -/
def run (s : Store) (events : List Event) : Store := events.foldl step s

/-- The entry last put under a key. -/
def lastPut (key : String) (events : List Event) : Option CacheEntry :=
  events.foldl (fun last event =>
    match event with
    | .call _ (.put k e) => if k = key then some e else last
    | _ => last) none

/-- All that the parts of a store keep has a property, and no part fails. -/
def All (P : String → CacheEntry → Prop) : Store → Prop
  | memory m => ∀ key e, m.get? key = some e → P key e
  | table t => ∀ key r, t.get? key = some r → ∃ e, P key e ∧ r = .ofEntry e
  | tiered front back => front.All P ∧ back.All P
  | unreliable _ _ _ => False

variable {P P' : String → CacheEntry → Prop} {s : Store}

lemma All.mono (h : s.All P) (sub : ∀ key e, P key e → P' key e) : s.All P' := by
  induction s with
  | memory m => exact fun key e he => sub key e (h key e he)
  | table t =>
    intro key r hr
    obtain ⟨e, he, row⟩ := h key r hr
    exact ⟨e, sub key e he, row⟩
  | tiered front back ihf ihb => exact ⟨ihf h.1, ihb h.2⟩
  | unreliable fails calls s ih => exact h.elim

lemma All.restarted (h : s.All P) : s.restarted.All P := by
  induction s with
  | memory m => exact nofun
  | table t => exact h
  | tiered front back ihf ihb => exact ⟨ihf h.1, ihb h.2⟩
  | unreliable fails calls s ih => exact h.elim

/-- An operation has a result with a property, and leaves a store all of which has another one. -/
def Gives {α : Type} (a : Answer α) (P : String → CacheEntry → Prop) (Q : α → Prop) : Prop :=
  ∃ x s, a = (.ok x, s) ∧ s.All P ∧ Q x

lemma Gives.all {α : Type} {a : Answer α} {Q : α → Prop} (h : Gives a P Q) : a.2.All P := by
  obtain ⟨x, s, rfl, all, -⟩ := h
  exact all

/-- An operation that each tier does for itself. -/
lemma Gives.both {α β γ : Type} {a : Answer α} {b : Answer β} (combine : α → β → γ)
    (ha : Gives a P fun _ => True) (hb : Gives b P fun _ => True) (back : Store) :
    Gives (onFront a back fun x front => onBack b front fun y back =>
      (.ok (combine x y), tiered front back)) P fun _ => True := by
  obtain ⟨x, front', rfl, inFront, -⟩ := ha
  obtain ⟨y, back', rfl, inBack, -⟩ := hb
  exact ⟨combine x y, tiered front' back', rfl, ⟨inFront, inBack⟩, trivial⟩

/-- Some entry that may be kept under a key has not expired, or its row has not. -/
def Alive (P : String → CacheEntry → Prop) (now : Timestamp) (key : String) : Prop :=
  ∃ e, P key e ∧
    (e.isExpiredAt now = false ∨ (CacheRow.ofEntry e).isExpiredAt now.millis = false)

lemma all_erase_memory {m : SortedMap CacheEntry} (h : (memory m).All P) (key : String) :
    (memory (m.erase key)).All P := by
  intro k e he
  rw [SortedMap.get?_erase] at he
  split_ifs at he
  exact h k e he

lemma all_erase_table {t : SortedMap CacheRow} (h : (table t).All P) (key : String) :
    (table (t.erase key)).All P := by
  intro k r hr
  rw [SortedMap.get?_erase] at hr
  split_ifs at hr
  exact h k r hr

/-! ## Operations -/

/-- What is put takes the place of what was kept under the key, in every part. -/
lemma All.put (h : s.All P) {key : String} {e : CacheEntry}
    (other : ∀ k e', k ≠ key → P k e' → P' k e') (new : P' key e) :
    Gives (s.put key e) P' fun _ => True := by
  induction s with
  | memory m =>
    refine ⟨(), _, rfl, fun k e' he => ?_, trivial⟩
    rw [SortedMap.get?_insert] at he
    split_ifs at he with same
    · obtain rfl := Option.some.inj he
      exact same ▸ new
    · exact other k e' same (h k e' he)
  | table t =>
    refine ⟨(), _, rfl, fun k r hr => ?_, trivial⟩
    rw [SortedMap.get?_insert] at hr
    split_ifs at hr with same
    · exact ⟨e, same ▸ new, (Option.some.inj hr).symm⟩
    · obtain ⟨e', he, row⟩ := h k r hr
      exact ⟨e', other k e' same he, row⟩
  | tiered front back ihf ihb =>
    obtain ⟨_, back', done, inBack, -⟩ := ihb h.2
    obtain ⟨_, front', done', inFront, -⟩ := ihf h.1
    refine ⟨(), tiered front' back', ?_, ⟨inFront, inBack⟩, trivial⟩
    rw [Store.put, done, onBack_ok, done', onFront_ok]
  | unreliable fails calls s ih => exact h.elim

/-- What is found under a key may be kept there, and something of the kind is alive. -/
lemma All.get (h : s.All P) (back : ∀ k e, P k e → P k e.reread) (now : Timestamp)
    (key : String) : Gives (s.get now key) P fun x => ∀ e ∈ x, P key e ∧ Alive P now key := by
  have nothing : ∀ e ∈ (none : Option CacheEntry), P key e ∧ Alive P now key := by simp
  induction s with
  | memory m =>
    rw [Store.get]
    cases found : m.get? key with
    | none => exact ⟨none, _, rfl, h, nothing⟩
    | some e =>
      have kept := h key e found
      dsimp only
      split_ifs with expired
      · exact ⟨none, _, rfl, all_erase_memory h key, nothing⟩
      · refine ⟨some e, _, rfl, h, ?_⟩
        rintro _ ⟨⟩
        exact ⟨kept, e, kept, Or.inl (Bool.eq_false_of_not_eq_true expired)⟩
  | table t =>
    rw [Store.get]
    cases found : t.get? key with
    | none => exact ⟨none, _, rfl, h, nothing⟩
    | some r =>
      obtain ⟨e, kept, rfl⟩ := h key r found
      dsimp only
      split_ifs with expired
      · exact ⟨none, _, rfl, all_erase_table h key, nothing⟩
      · refine ⟨some e.reread, _, rfl, h, ?_⟩
        rintro _ ⟨⟩
        exact ⟨back key e kept, e, kept, Or.inr (Bool.eq_false_of_not_eq_true expired)⟩
  | tiered front back' ihf ihb =>
    obtain ⟨x, front', found, inFront, hx⟩ := ihf h.1
    rw [Store.get, found, onFront_ok]
    cases x with
    | some e => exact ⟨some e, _, rfl, ⟨inFront, h.2⟩, hx⟩
    | none =>
      obtain ⟨y, back'', found', inBack, hy⟩ := ihb h.2
      dsimp only
      rw [found', onBack_ok]
      cases y with
      | none => exact ⟨none, _, rfl, ⟨inFront, inBack⟩, nothing⟩
      | some e =>
        -- the front tier takes over what the back tier has found
        have fill : Gives (front'.put key e) P fun _ => True :=
          inFront.put (fun _ _ _ kept => kept) (hy e rfl).1
        obtain ⟨_, front'', done, filled, -⟩ := fill
        dsimp only
        rw [done, onFront_ok]
        exact ⟨some e, _, rfl, ⟨filled, inBack⟩, hy⟩
  | unreliable fails calls s ih => exact h.elim

lemma All.has (h : s.All P) (now : Timestamp) (key : String) :
    Gives (s.has now key) P fun b => b = true → Alive P now key := by
  have nothing : false = true → Alive P now key := by simp
  induction s with
  | memory m =>
    rw [Store.has]
    cases found : m.get? key with
    | none => exact ⟨false, _, rfl, h, nothing⟩
    | some e =>
      dsimp only
      split_ifs with expired
      · exact ⟨false, _, rfl, all_erase_memory h key, nothing⟩
      · exact ⟨true, _, rfl, h, fun _ =>
          ⟨e, h key e found, Or.inl (Bool.eq_false_of_not_eq_true expired)⟩⟩
  | table t =>
    rw [Store.has]
    cases found : t.get? key with
    | none => exact ⟨false, _, rfl, h, nothing⟩
    | some r =>
      obtain ⟨e, kept, rfl⟩ := h key r found
      dsimp only
      split_ifs with expired
      · exact ⟨false, _, rfl, all_erase_table h key, nothing⟩
      · exact ⟨true, _, rfl, h, fun _ =>
          ⟨e, kept, Or.inr (Bool.eq_false_of_not_eq_true expired)⟩⟩
  | tiered front back ihf ihb =>
    obtain ⟨b, front', found, inFront, hb⟩ := ihf h.1
    rw [Store.has, found, onFront_ok]
    cases b with
    | true => exact ⟨true, _, rfl, ⟨inFront, h.2⟩, hb⟩
    | false =>
      obtain ⟨c, back', found', inBack, hc⟩ := ihb h.2
      dsimp only
      rw [found', onBack_ok]
      exact ⟨c, _, rfl, ⟨inFront, inBack⟩, hc⟩
  | unreliable fails calls s ih => exact h.elim

lemma All.delete (h : s.All P) (key : String) : Gives (s.delete key) P fun _ => True := by
  induction s with
  | memory m => exact ⟨_, _, rfl, all_erase_memory h key, trivial⟩
  | table t => exact ⟨_, _, rfl, all_erase_table h key, trivial⟩
  | tiered front back ihf ihb => exact (ihf h.1).both (· || ·) (ihb h.2) back
  | unreliable fails calls s ih => exact h.elim

lemma All.clear (h : s.All P) : Gives s.clear P fun _ => True := by
  induction s with
  | memory m => exact ⟨_, _, rfl, nofun, trivial⟩
  | table t => exact ⟨_, _, rfl, nofun, trivial⟩
  | tiered front back ihf ihb => exact (ihf h.1).both (fun _ _ => ()) (ihb h.2) back
  | unreliable fails calls s ih => exact h.elim

lemma All.purge (h : s.All P) (now : Timestamp) : Gives (s.purge now) P fun _ => True := by
  induction s with
  | memory m =>
    refine ⟨_, _, rfl, fun k e he => ?_, trivial⟩
    exact h k e ((SortedMap.get?_filter_eq_some_iff _ _ k e).1 he).1
  | table t =>
    refine ⟨_, _, rfl, fun k r hr => ?_, trivial⟩
    exact h k r ((SortedMap.get?_filter_eq_some_iff _ _ k r).1 hr).1
  | tiered front back ihf ihb => exact (ihf h.1).both max (ihb h.2) back
  | unreliable fails calls s ih => exact h.elim

lemma All.size (h : s.All P) : Gives s.size P fun _ => True := by
  induction s with
  | memory m => exact ⟨_, _, rfl, h, trivial⟩
  | table t => exact ⟨_, _, rfl, h, trivial⟩
  | tiered front back ihf ihb =>
    obtain ⟨n, back', done, allBack, -⟩ := ihb h.2
    refine ⟨n, tiered front back', ?_, ⟨h.1, allBack⟩, trivial⟩
    rw [Store.size, done, onBack_ok]
  | unreliable fails calls s ih => exact h.elim

/-- A call that puts nothing keeps what all parts keep. -/
lemma All.call (h : s.All P) (back : ∀ k e, P k e → P k e.reread) (now : Timestamp) {c : Call}
    (other : ∀ k e, c ≠ .put k e) : (s.call now c).2.All P := by
  cases c with
  | get key => exact (h.get back now key).all
  | put k e => exact absurd rfl (other k e)
  | has key => exact (h.has now key).all
  | delete key => exact (h.delete key).all
  | clear => exact h.clear.all
  | purge => exact (h.purge now).all
  | size => exact h.size.all

/-! ## Copies of what was put last -/

/-- The entry last put under a key, or what is read back from its row. -/
def CopyOfLast (events : List Event) (key : String) (c : CacheEntry) : Prop :=
  ∃ e, lastPut key events = some e ∧ (c = e ∨ c = e.reread)

lemma CopyOfLast.reread {events : List Event} {key : String} {c : CacheEntry}
    (h : CopyOfLast events key c) : CopyOfLast events key c.reread := by
  obtain ⟨e, last, rfl | rfl⟩ := h
  · exact ⟨c, last, Or.inr rfl⟩
  · exact ⟨e, last, Or.inr e.reread_reread⟩

variable {now : Timestamp}

/-- An entry that is kept for a millisecond and a half, from a moment between two milliseconds. -/
def fleeting : CacheEntry := ⟨[1], ⟨0, 700000⟩, some ⟨1500000⟩⟩

end Store

end ApiCanon
