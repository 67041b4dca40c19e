import ApiCanon.Cache.Store
import ApiCanon.Proofs.Collection.SortedMap

/-!
# Two tiers as one store

A store in two tiers cannot be told from a single one (`tiered_replies_eq`): as long as neither
tier fails and both do what a store in memory does, all calls are answered as by one store in
memory.  What makes it so is that the front tier has nothing that the back tier does not have, at
any moment and with the same value, insertion and span; every call keeps it that way.

What a tier is made of plays no part in this.  A store does what a store in memory does if its
calls are answered as from a map, from one call to the next (`Follows`); a store in two such tiers
then follows the map of its back tier (`tiered_follows`), so that tiers may be stacked.
-/

namespace ApiCanon

namespace Store

/-! ## Calls and their replies -/

/-- A call of a store. -/
inductive Call where
  | get (key : String)
  | put (key : String) (e : CacheEntry)
  | has (key : String)
  | delete (key : String)
  | clear
  | purge
  | size

/-- What a call returns. -/
inductive Reply where
  | done
  | entry (e : Option CacheEntry)
  | truth (b : Bool)
  | count (n : Nat)
  deriving DecidableEq

/-- Makes the result of an operation a reply. -/
def answering {α : Type} (reply : α → Reply) (a : Answer α) : Answer Reply :=
  (a.1.map reply, a.2)

/-- Makes a call at a moment. -/
def call (now : Timestamp) : Call → Store → Answer Reply
  | .get key, s => answering .entry (s.get now key)
  | .put key e, s => answering (fun _ => .done) (s.put key e)
  | .has key, s => answering .truth (s.has now key)
  | .delete key, s => answering .truth (s.delete key)
  | .clear, s => answering (fun _ => .done) s.clear
  | .purge, s => answering .count (s.purge now)
  | .size, s => answering .count s.size

/-- The store after some calls, each with its moment. -/
def after (s : Store) (calls : List (Timestamp × Call)) : Store :=
  calls.foldl (fun s c => (s.call c.1 c.2).2) s

/-- The replies to some calls, each with its moment. -/
def replies (s : Store) : List (Timestamp × Call) → List (Except StoreError Reply)
  | [] => []
  | c :: rest => (s.call c.1 c.2).1 :: replies (s.call c.1 c.2).2 rest

/-- A store has an entry under a key, expired or not: there is a moment for which it is found. -/
def Keeps (s : Store) (key : String) (e : CacheEntry) : Prop :=
  ∃ now, (s.get now key).1 = .ok (some e)

/-! ## What a store in memory does -/

/-- The entry of a key, unless it has expired. -/
def live? (now : Timestamp) (key : String) (m : SortedMap CacheEntry) : Option CacheEntry :=
  (m.get? key).filter fun e => !e.isExpiredAt now

/-- The map without the entry of a key if that has expired. -/
def settled (now : Timestamp) (key : String) (m : SortedMap CacheEntry) : SortedMap CacheEntry :=
  match m.get? key with
  | none => m
  | some e => if e.isExpiredAt now then m.erase key else m

/-- The entries that have not expired. -/
def unexpired (now : Timestamp) (m : SortedMap CacheEntry) : SortedMap CacheEntry :=
  m.filter fun _ e => !e.isExpiredAt now

/-- The reply to a call from a map in memory. -/
def replyFrom (now : Timestamp) (m : SortedMap CacheEntry) : Call → Reply
  | .get key => .entry (live? now key m)
  | .put _ _ => .done
  | .has key => .truth (live? now key m).isSome
  | .delete key => .truth (m.contains key)
  | .clear => .done
  | .purge => .count (m.size - (unexpired now m).size)
  | .size => .count m.size

/-- The map after a call. -/
def mapAfter (now : Timestamp) (m : SortedMap CacheEntry) : Call → SortedMap CacheEntry
  | .get key => settled now key m
  | .put key e => m.insert key e
  | .has key => settled now key m
  | .delete key => m.erase key
  | .clear => .empty
  | .purge => unexpired now m
  | .size => m

lemma memory_get (now : Timestamp) (key : String) (m : SortedMap CacheEntry) :
    (memory m).get now key = (.ok (live? now key m), memory (settled now key m)) := by
  unfold get live? settled
  cases m.get? key with
  | none => rfl
  | some e =>
    simp only [Option.filter_some]
    cases e.isExpiredAt now <;> rfl

lemma memory_has (now : Timestamp) (key : String) (m : SortedMap CacheEntry) :
    (memory m).has now key = (.ok (live? now key m).isSome, memory (settled now key m)) := by
  unfold has live? settled
  cases m.get? key with
  | none => rfl
  | some e =>
    simp only [Option.filter_some]
    cases e.isExpiredAt now <;> rfl

/-- Calls of a store in memory, in terms of its map. -/
theorem memory_call (now : Timestamp) (c : Call) (m : SortedMap CacheEntry) :
    (memory m).call now c = (.ok (replyFrom now m c), memory (mapAfter now m c)) := by
  cases c with
  | get key => rw [call, memory_get]; rfl
  | has key => rw [call, memory_has]; rfl
  | put key e => rfl
  | delete key => rfl
  | clear => rfl
  | purge => rfl
  | size => rfl

/-- After a look at a key, the map has under it what was found. -/
lemma get?_settled (now : Timestamp) (key k : String) (m : SortedMap CacheEntry) :
    (settled now key m).get? k = if k = key then live? now key m else m.get? k := by
  by_cases hk : k = key
  · subst hk
    rw [if_pos rfl]
    unfold settled live?
    cases hm : m.get? k with
    | none => exact hm
    | some e => cases expired : e.isExpiredAt now <;> simp [hm, expired, Option.filter_some]
  · rw [if_neg hk]
    unfold settled
    split
    · rfl
    · split_ifs
      · exact SortedMap.get?_erase_of_ne m hk
      · rfl

lemma live?_eq_some_iff {now : Timestamp} {key : String} {m : SortedMap CacheEntry}
    {e : CacheEntry} :
    live? now key m = some e ↔ m.get? key = some e ∧ e.isExpiredAt now = false := by
  rw [live?, Option.filter_eq_some_iff, Bool.not_eq_true']

lemma settled_of_live {now : Timestamp} {key : String} {m : SortedMap CacheEntry} {e : CacheEntry}
    (h : live? now key m = some e) : settled now key m = m := by
  refine SortedMap.ext_get? fun k => ?_
  rw [get?_settled]
  split_ifs with hk
  · rw [hk, h, (live?_eq_some_iff.1 h).1]
  · rfl

lemma live?_of_within {a m : SortedMap CacheEntry} (h : a.Within m) {now : Timestamp}
    {key : String} {e : CacheEntry} (he : live? now key a = some e) : live? now key m = some e := by
  obtain ⟨found, fresh⟩ := live?_eq_some_iff.1 he
  exact live?_eq_some_iff.2 ⟨h key e found, fresh⟩

lemma settled_within {a m : SortedMap CacheEntry} (h : a.Within m) (now : Timestamp)
    (key : String) : (settled now key a).Within (settled now key m) := by
  intro k e he
  rw [get?_settled] at he ⊢
  split_ifs at he ⊢
  · exact live?_of_within h he
  · exact h k e he

/-! ## Stores that do the same -/

/-- A relation between stores and maps that calls keep and by which they are answered. -/
structure Simulates (R : Store → SortedMap CacheEntry → Prop) : Prop where
  reply : ∀ {s m}, R s m → ∀ now c, (s.call now c).1 = .ok (replyFrom now m c)
  next : ∀ {s m}, R s m → ∀ now c, R (s.call now c).2 (mapAfter now m c)

/-- A store does what the store in memory with a certain map does, for all calls to come, and so
does not fail. -/
def Follows (s : Store) (m : SortedMap CacheEntry) : Prop := ∃ R, Simulates R ∧ R s m

variable {s : Store} {m : SortedMap CacheEntry}

lemma Follows.reply (h : s.Follows m) (now : Timestamp) (c : Call) :
    (s.call now c).1 = .ok (replyFrom now m c) := by
  obtain ⟨R, simulates, related⟩ := h
  exact simulates.reply related now c

lemma Follows.next (h : s.Follows m) (now : Timestamp) (c : Call) :
    (s.call now c).2.Follows (mapAfter now m c) := by
  obtain ⟨R, simulates, related⟩ := h
  exact ⟨R, simulates, simulates.next related now c⟩

theorem memory_follows (m : SortedMap CacheEntry) : (memory m).Follows m := by
  refine ⟨fun s m => s = memory m, ⟨?_, ?_⟩, rfl⟩
  · rintro s m rfl now c
    rw [memory_call]
  · rintro s m rfl now c
    rw [memory_call]

lemma of_answering {α : Type} {reply : α → Reply} (injective : Function.Injective reply)
    {a : Answer α} {x : α} (h : (answering reply a).1 = .ok (reply x)) : a = (.ok x, a.2) := by
  obtain ⟨result, s⟩ := a
  cases result with
  | error f => cases h
  | ok y => rw [injective (Except.ok.inj h)]

/-- An operation has a result and leaves a store that follows a map. -/
def Leads {α : Type} (a : Answer α) (x : α) (m : SortedMap CacheEntry) : Prop :=
  ∃ s, a = (.ok x, s) ∧ s.Follows m

lemma Follows.get (h : s.Follows m) (now : Timestamp) (key : String) :
    Leads (s.get now key) (live? now key m) (settled now key m) :=
  ⟨_, of_answering (fun _ _ => Reply.entry.inj) (h.reply now (.get key)), h.next now (.get key)⟩

lemma Follows.has (h : s.Follows m) (now : Timestamp) (key : String) :
    Leads (s.has now key) (live? now key m).isSome (settled now key m) :=
  ⟨_, of_answering (fun _ _ => Reply.truth.inj) (h.reply now (.has key)), h.next now (.has key)⟩

lemma Follows.put (h : s.Follows m) (key : String) (e : CacheEntry) :
    Leads (s.put key e) () (m.insert key e) :=
  ⟨_, of_answering (fun _ _ _ => rfl) (h.reply default (.put key e)), h.next default (.put key e)⟩

lemma Follows.delete (h : s.Follows m) (key : String) :
    Leads (s.delete key) (m.contains key) (m.erase key) :=
  ⟨_, of_answering (fun _ _ => Reply.truth.inj) (h.reply default (.delete key)),
    h.next default (.delete key)⟩

lemma Follows.clear (h : s.Follows m) : Leads s.clear () .empty :=
  ⟨_, of_answering (fun _ _ _ => rfl) (h.reply default .clear), h.next default .clear⟩

lemma Follows.purge (h : s.Follows m) (now : Timestamp) :
    Leads (s.purge now) (m.size - (unexpired now m).size) (unexpired now m) :=
  ⟨_, of_answering (fun _ _ => Reply.count.inj) (h.reply now .purge), h.next now .purge⟩

lemma Follows.size (h : s.Follows m) : Leads s.size m.size m :=
  ⟨_, of_answering (fun _ _ => Reply.count.inj) (h.reply default .size), h.next default .size⟩

/-! ## Two tiers -/

/-- Both tiers follow maps, and the front tier has nothing that the back tier does not have. -/
def InTiers (front back : Store) (m : SortedMap CacheEntry) : Prop :=
  ∃ a, front.Follows a ∧ back.Follows m ∧ a.Within m

/-- An operation on two tiers has a result and leaves two such tiers. -/
def LeadsInTiers {α : Type} (a : Answer α) (x : α) (m : SortedMap CacheEntry) : Prop :=
  ∃ front back, a = (.ok x, tiered front back) ∧ InTiers front back m

variable {front back : Store}

lemma onFront_ok {α β : Type} (x : α) (front back : Store) (next : α → Store → Answer β) :
    onFront (.ok x, front) back next = next x front := rfl

lemma onBack_ok {α β : Type} (x : α) (front back : Store) (next : α → Store → Answer β) :
    onBack (.ok x, back) front next = next x back := rfl

/-- What the front tier finds is live in both tiers, which therefore stay as they are. -/
lemma inTiers_of_live {a : SortedMap CacheEntry} (sub : a.Within m) {now : Timestamp}
    {key : String} {e : CacheEntry} (ha : live? now key a = some e)
    (hf : front.Follows (settled now key a)) (hb : back.Follows m) :
    InTiers front back (settled now key m) := by
  rw [settled_of_live ha] at hf
  rw [settled_of_live (live?_of_within sub ha)]
  exact ⟨a, hf, hb, sub⟩

lemma tiered_get (h : InTiers front back m) (now : Timestamp) (key : String) :
    LeadsInTiers ((tiered front back).get now key) (live? now key m) (settled now key m) := by
  obtain ⟨a, hf, hb, sub⟩ := h
  obtain ⟨front', found, hf'⟩ := hf.get now key
  rw [get, found, onFront_ok]
  cases ha : live? now key a with
  | some e =>
    -- the back tier is not asked
    rw [live?_of_within sub ha]
    exact ⟨front', back, rfl, inTiers_of_live sub ha hf' hb⟩
  | none =>
    obtain ⟨back', found', hb'⟩ := hb.get now key
    dsimp only
    rw [found', onBack_ok]
    cases hm : live? now key m with
    | none => exact ⟨front', back', rfl, _, hf', hb', settled_within sub now key⟩
    | some e =>
      obtain ⟨front'', done, hf''⟩ := hf'.put key e
      dsimp only
      rw [done, onFront_ok]
      refine ⟨front'', back', rfl, _, hf'', hb', fun k e' he' => ?_⟩
      rw [SortedMap.get?_insert] at he'
      split_ifs at he' with hk
      · rw [hk, get?_settled, if_pos rfl, hm, he']
      · exact settled_within sub now key k e' he'

lemma tiered_has (h : InTiers front back m) (now : Timestamp) (key : String) :
    LeadsInTiers ((tiered front back).has now key) (live? now key m).isSome
      (settled now key m) := by
  obtain ⟨a, hf, hb, sub⟩ := h
  obtain ⟨front', found, hf'⟩ := hf.has now key
  rw [has, found, onFront_ok]
  cases ha : live? now key a with
  | some e =>
    rw [live?_of_within sub ha]
    exact ⟨front', back, rfl, inTiers_of_live sub ha hf' hb⟩
  | none =>
    obtain ⟨back', found', hb'⟩ := hb.has now key
    dsimp only [Option.isSome]
    rw [found', onBack_ok]
    exact ⟨front', back', rfl, _, hf', hb', settled_within sub now key⟩

lemma tiered_put (h : InTiers front back m) (key : String) (e : CacheEntry) :
    LeadsInTiers ((tiered front back).put key e) () (m.insert key e) := by
  obtain ⟨a, hf, hb, sub⟩ := h
  obtain ⟨back', done, hb'⟩ := hb.put key e
  obtain ⟨front', done', hf'⟩ := hf.put key e
  rw [put, done, onBack_ok, done', onFront_ok]
  exact ⟨front', back', rfl, _, hf', hb', sub.insert key e⟩

lemma tiered_delete (h : InTiers front back m) (key : String) :
    LeadsInTiers ((tiered front back).delete key) (m.contains key) (m.erase key) := by
  obtain ⟨a, hf, hb, sub⟩ := h
  obtain ⟨front', inFront, hf'⟩ := hf.delete key
  obtain ⟨back', inBack, hb'⟩ := hb.delete key
  have either : (a.contains key || m.contains key) = m.contains key :=
    Bool.or_eq_right_iff_imp.2 sub.contains
  rw [delete, inFront, onFront_ok, inBack, onBack_ok, either]
  exact ⟨front', back', rfl, _, hf', hb', sub.erase key⟩

lemma tiered_clear (h : InTiers front back m) :
    LeadsInTiers (tiered front back).clear () .empty := by
  obtain ⟨a, hf, hb, sub⟩ := h
  obtain ⟨front', done, hf'⟩ := hf.clear
  obtain ⟨back', done', hb'⟩ := hb.clear
  rw [clear, done, onFront_ok, done', onBack_ok]
  exact ⟨front', back', rfl, _, hf', hb', SortedMap.within_refl _⟩

lemma tiered_purge (h : InTiers front back m) (now : Timestamp) :
    LeadsInTiers ((tiered front back).purge now) (m.size - (unexpired now m).size)
      (unexpired now m) := by
  obtain ⟨a, hf, hb, sub⟩ := h
  obtain ⟨front', inFront, hf'⟩ := hf.purge now
  obtain ⟨back', inBack, hb'⟩ := hb.purge now
  have greater : max (a.size - (unexpired now a).size) (m.size - (unexpired now m).size) =
      m.size - (unexpired now m).size :=
    max_eq_right (sub.size_sub_size_filter_le _)
  rw [purge, inFront, onFront_ok, inBack, onBack_ok, greater]
  exact ⟨front', back', rfl, _, hf', hb', sub.filter _⟩

lemma tiered_size (h : InTiers front back m) :
    LeadsInTiers (tiered front back).size m.size m := by
  obtain ⟨a, hf, hb, sub⟩ := h
  obtain ⟨back', counted, hb'⟩ := hb.size
  rw [size, counted, onBack_ok]
  exact ⟨front, back', rfl, a, hf, hb', sub⟩

lemma LeadsInTiers.answering {α : Type} {a : Answer α} {x : α} {n : SortedMap CacheEntry}
    (h : LeadsInTiers a x n) (reply : α → Reply) :
    LeadsInTiers (answering reply a) (reply x) n := by
  obtain ⟨front, back, rfl, tiers⟩ := h
  exact ⟨front, back, rfl, tiers⟩

/-- A call of two tiers is answered from the map of the back tier and leaves two such tiers. -/
theorem tiered_call (h : InTiers front back m) (now : Timestamp) (c : Call) :
    LeadsInTiers ((tiered front back).call now c) (replyFrom now m c) (mapAfter now m c) := by
  cases c with
  | get key => exact (tiered_get h now key).answering _
  | put key e => exact (tiered_put h key e).answering _
  | has key => exact (tiered_has h now key).answering _
  | delete key => exact (tiered_delete h key).answering _
  | clear => exact (tiered_clear h).answering _
  | purge => exact (tiered_purge h now).answering _
  | size => exact (tiered_size h).answering _

/-- Two tiers that follow maps, of which the front one lies within the back one, follow the map of
the back tier. -/
theorem tiered_follows (h : InTiers front back m) : (tiered front back).Follows m := by
  refine ⟨fun s m => ∃ front back, s = tiered front back ∧ InTiers front back m, ⟨?_, ?_⟩,
    front, back, rfl, h⟩
  · rintro _ m ⟨front, back, rfl, tiers⟩ now c
    obtain ⟨front', back', answer, -⟩ := tiered_call tiers now c
    rw [answer]
  · rintro _ m ⟨front, back, rfl, tiers⟩ now c
    obtain ⟨front', back', answer, tiers'⟩ := tiered_call tiers now c
    exact ⟨front', back', by rw [answer], tiers'⟩

/-- A store none of whose calls fail does what the store does that it is made of. -/
theorem unreliable_follows {fails : Nat → Bool} (sound : ∀ n, fails n = false) (calls : Nat)
    (h : s.Follows m) : (unreliable fails calls s).Follows m := by
  have passed : ∀ now c calls (s : Store), (unreliable fails calls s).call now c =
      ((s.call now c).1, unreliable fails (calls + 1) (s.call now c).2) := by
    intro now c calls s
    cases c <;> simp [call, answering, get, put, has, delete, clear, purge, size, attempt, sound]
  refine ⟨fun t m => ∃ calls s, t = unreliable fails calls s ∧ s.Follows m, ⟨?_, ?_⟩,
    calls, s, rfl, h⟩
  · rintro _ m ⟨calls, s, rfl, follows⟩ now c
    rw [passed, follows.reply]
  · rintro _ m ⟨calls, s, rfl, follows⟩ now c
    exact ⟨calls + 1, _, by rw [passed], follows.next now c⟩

/-! ## Runs -/

/-- What two tiers keep is kept by a run: they stay two tiers of that kind. -/
theorem after_inTiers (h : InTiers front back m) (calls : List (Timestamp × Call)) :
    ∃ front' back' m', (tiered front back).after calls = tiered front' back' ∧
      InTiers front' back' m' := by
  induction calls generalizing front back m with
  | nil => exact ⟨front, back, m, rfl, h⟩
  | cons c rest ih =>
    obtain ⟨front', back', answer, tiers⟩ := tiered_call h c.1 c.2
    obtain ⟨front'', back'', m', run, tiers'⟩ := ih tiers
    refine ⟨front'', back'', m', ?_, tiers'⟩
    rw [after, List.foldl_cons, answer]
    exact run

/-- Stores that follow one map cannot be told from each other by any run of calls. -/
theorem replies_eq_of_follows {s t : Store} (hs : s.Follows m) (ht : t.Follows m)
    (calls : List (Timestamp × Call)) : s.replies calls = t.replies calls := by
  induction calls generalizing s t m with
  | nil => rfl
  | cons c rest ih =>
    rw [replies, replies, hs.reply c.1 c.2, ht.reply c.1 c.2,
      ih (hs.next c.1 c.2) (ht.next c.1 c.2)]

/-- There is a moment at which an entry has not expired, however short the span is for which it is
kept. -/
lemma exists_unexpired (e : CacheEntry) : ∃ now, e.isExpiredAt now = false := by
  cases he : e.expiresAt? with
  | none => exact ⟨default, by rw [CacheEntry.isExpiredAt, he]⟩
  | some deadline =>
    refine ⟨⟨deadline.seconds - 1, 0⟩, ?_⟩
    simp only [CacheEntry.isExpiredAt, he, Timestamp.le, Bool.or_eq_false_iff,
      Bool.and_eq_false_iff, decide_eq_false_iff_not, beq_eq_false_iff_ne]
    omega

/-- The entries of a store that follows a map are those of the map. -/
theorem Follows.keeps_iff (h : s.Follows m) (key : String) (e : CacheEntry) :
    s.Keeps key e ↔ m.get? key = some e := by
  constructor
  · rintro ⟨now, found⟩
    obtain ⟨t, answer, -⟩ := h.get now key
    rw [answer] at found
    exact (live?_eq_some_iff.1 (Except.ok.inj found)).1
  · intro he
    obtain ⟨now, fresh⟩ := exists_unexpired e
    obtain ⟨t, answer, -⟩ := h.get now key
    refine ⟨now, ?_⟩
    rw [answer, live?_eq_some_iff.2 ⟨he, fresh⟩]

lemma InTiers.keeps (h : InTiers front back m) {key : String} {e : CacheEntry}
    (he : front.Keeps key e) : back.Keeps key e := by
  obtain ⟨a, hf, hb, sub⟩ := h
  exact (hb.keeps_iff key e).2 (sub key e ((hf.keeps_iff key e).1 he))

/-- Two tiers of which neither fails and both do what a store in memory does cannot be told from a
single store in memory, if they start empty or, more generally, if the front tier starts with
nothing that the back tier does not have: at whatever moments calls are made, they are answered in
the same way.  After every run every entry of the front tier is one of the back tier, with its
value, insertion and span. -/
theorem tiered_replies_eq {a : SortedMap CacheEntry} (hf : front.Follows a) (hb : back.Follows m)
    (sub : a.Within m) (calls : List (Timestamp × Call)) :
    (tiered front back).replies calls = (memory m).replies calls ∧
      ∃ front' back', (tiered front back).after calls = tiered front' back' ∧
        ∀ key e, front'.Keeps key e → back'.Keeps key e := by
  have tiers : InTiers front back m := ⟨a, hf, hb, sub⟩
  obtain ⟨front', back', m', run, tiers'⟩ := after_inTiers tiers calls
  refine ⟨replies_eq_of_follows (tiered_follows tiers) (memory_follows m) calls, front', back', run,
    fun key e he => tiers'.keeps he⟩

/-- An entry that is kept for five seconds. -/
def shortLived : CacheEntry := ⟨[1], ⟨0, 0⟩, some (.ofMillis 5000)⟩

/-- Calls that put the entry and look for it before its deadline and at it. -/
def untilDeadline : List (Timestamp × Call) :=
  [(⟨0, 0⟩, .put "k" shortLived), (⟨4, 0⟩, .get "k"), (⟨5, 0⟩, .size), (⟨5, 0⟩, .has "k"),
    (⟨5, 0⟩, .size), (⟨6, 0⟩, .purge)]

theorem tiered_replies_eq_untilDeadline :
    let back := unreliable (fun _ => false) 0 (memory .empty)
    (memory .empty).Follows .empty ∧ back.Follows .empty ∧
      (tiered (memory .empty) back).replies untilDeadline =
        [.ok .done, .ok (.entry (some shortLived)), .ok (.count 1), .ok (.truth false),
          .ok (.count 0), .ok (.count 0)] := by
  have front := memory_follows .empty
  have back := unreliable_follows (fun _ => rfl) 0 (memory_follows .empty)
  obtain ⟨replies, -⟩ := tiered_replies_eq front back (SortedMap.within_refl _) untilDeadline
  exact ⟨front, back, replies.trans (by decide +kernel)⟩

end Store

end ApiCanon
