import ApiCanon.Proofs.Cache.Backends

/-!
# Two tiers of which the back one may fail

Some calls of the back tier fail, by whatever plan, and leave it as it is.  A store in two tiers
stays coherent all the same, as long as either tier keeps what it is given (`tiered_coherent`): what
the front tier finds, the back tier has; a call that fails has not changed the back tier; and what
is returned is what the back tier has.

No call asks the back tier more than once, and what is written is written there first, what is
dropped is dropped there last.  Wherever a call stops half-way, the front tier has therefore lost
entries at most, and the back tier is untouched.

That a tier keeps what it is given is said of calls of some kind (`FollowsOn`), since a table does
so only with entries in whole milliseconds (`table_followsOn`).  Beyond that it does not
(`not_coherent_of_endless`): a row has no room for the longest spans.
-/

namespace ApiCanon

namespace Store

/-! ## Stores that do the same for some calls -/

/-- A relation between stores and maps that calls of a kind keep and by which they are answered. -/
structure SimulatesOn (W : Timestamp → Call → Prop) (R : Store → SortedMap CacheEntry → Prop) :
    Prop where
  reply : ∀ {s m}, R s m → ∀ now c, W now c → (s.call now c).1 = .ok (replyFrom now m c)
  next : ∀ {s m}, R s m → ∀ now c, W now c → R (s.call now c).2 (mapAfter now m c)

/-- A store does what the store in memory with a certain map does, for all calls of a kind. -/
def FollowsOn (W : Timestamp → Call → Prop) (s : Store) (m : SortedMap CacheEntry) : Prop :=
  ∃ R, SimulatesOn W R ∧ R s m

variable {W : Timestamp → Call → Prop} {s front inner : Store} {m a : SortedMap CacheEntry}

/-- A table of rows follows the map of their entries, as long as these are in whole milliseconds. -/
theorem table_followsOn (whole : AllWhole m) : (table (rows m)).FollowsOn WholeCall m := by
  have same : ∀ {now c} {m : SortedMap CacheEntry}, AllWhole m → WholeCall now c →
      (serve now.millis m c).1 = replyFrom now m c ∧
        (serve now.millis m c).2 = mapAfter now m c := by
    intro now c m whole hc
    have answer := (memory_call_eq_serve whole hc.moment c).symm.trans (memory_call now c m)
    obtain ⟨reply, next⟩ := Prod.mk.inj answer
    exact ⟨Except.ok.inj reply, memory.inj next⟩
  refine ⟨fun s m => s = table (rows m) ∧ AllWhole m, ⟨?_, ?_⟩, rfl, whole⟩
  · rintro _ m ⟨rfl, whole⟩ now c hc
    rw [table_call_eq_serve whole hc.moment, (same whole hc).1]
  · rintro _ m ⟨rfl, whole⟩ now c hc
    rw [table_call_eq_serve whole hc.moment, ← (same whole hc).2]
    exact ⟨rfl, whole.serve hc now.millis⟩

/-! ## Calls of the back tier -/

/-- An operation has a result and leaves a store that follows a map for calls of a kind. -/
def LeadsOn {α : Type} (W : Timestamp → Call → Prop) (answer : Answer α) (x : α)
    (m : SortedMap CacheEntry) : Prop :=
  ∃ s, answer = (.ok x, s) ∧ s.FollowsOn W m

lemma FollowsOn.leadsOn {α : Type} {reply : α → Reply} {answer : Answer α} {x : α}
    {now : Timestamp} {c : Call} (h : s.FollowsOn W m) (hc : W now c)
    (operation : s.call now c = answering reply answer) (result : replyFrom now m c = reply x)
    (injective : Function.Injective reply) : LeadsOn W answer x (mapAfter now m c) := by
  obtain ⟨R, simulates, related⟩ := h
  have replied := simulates.reply related now c hc
  have next := simulates.next related now c hc
  rw [operation] at replied next
  rw [result] at replied
  exact ⟨answer.2, of_answering injective replied, R, simulates, next⟩

/-- An operation of an unreliable store fails and changes nothing, or has a result. -/
inductive Tries {α : Type} (W : Timestamp → Call → Prop) (fails : Nat → Bool) (inner : Store)
    (x : α) (m : SortedMap CacheEntry) : Answer α → Prop where
  | done {n : Nat} {s : Store} (follows : s.FollowsOn W m) :
      Tries W fails inner x m (.ok x, unreliable fails n s)
  | failed {f : StoreError} {n : Nat} :
      Tries W fails inner x m (.error f, unreliable fails n inner)

lemma LeadsOn.attempt {α : Type} {answer : Answer α} {x : α} (h : LeadsOn W answer x m)
    (fails : Nat → Bool) (n : Nat) (inner : Store) :
    Tries W fails inner x m (attempt fails n inner answer) := by
  obtain ⟨s, rfl, follows⟩ := h
  unfold Store.attempt
  split_ifs
  · exact .failed
  · exact .done follows

/-! ## Operations on both tiers -/

/-- The front tier follows a map within that of the back tier. -/
def InTiersOn (W : Timestamp → Call → Prop) (front inner : Store) (m : SortedMap CacheEntry) :
    Prop :=
  ∃ a, front.Follows a ∧ inner.FollowsOn W m ∧ a.Within m

/-- An operation on two tiers has a result and leaves two such tiers, or it fails and has not
changed the back tier. -/
inductive Ends {α : Type} (W : Timestamp → Call → Prop) (fails : Nat → Bool) (inner : Store)
    (x : α) (m m' : SortedMap CacheEntry) : Answer α → Prop where
  | done {front s : Store} {n : Nat} (tiers : InTiersOn W front s m') :
      Ends W fails inner x m m' (.ok x, tiered front (unreliable fails n s))
  | failed {f : StoreError} {front : Store} {n : Nat} (tiers : InTiersOn W front inner m) :
      Ends W fails inner x m m' (.error f, tiered front (unreliable fails n inner))

/-- A map stays within another one when only its own key is settled. -/
lemma settled_within_of_within (sub : a.Within m) (now : Timestamp) (key : String) :
    (settled now key a).Within m := by
  intro k e he
  rw [get?_settled] at he
  split_ifs at he with same
  · exact same ▸ sub key e (live?_eq_some_iff.1 he).1
  · exact sub k e he

variable {now : Timestamp} {fails : Nat → Bool} {n : Nat}

/-- What the front tier finds is live in both tiers, which therefore stay as they are. -/
lemma inTiersOn_of_live {key : String} {e : CacheEntry} (sub : a.Within m)
    (ha : live? now key a = some e) (hf : front.Follows (settled now key a))
    (hb : inner.FollowsOn W m) : InTiersOn W front inner (settled now key m) := by
  rw [settled_of_live ha] at hf
  rw [settled_of_live (live?_of_within sub ha)]
  exact ⟨a, hf, hb, sub⟩

lemma ends_get (h : InTiersOn W front inner m) {key : String} (hc : W now (.get key)) :
    Ends W fails inner (live? now key m) m (settled now key m)
      ((tiered front (unreliable fails n inner)).get now key) := by
  obtain ⟨a, hf, hb, sub⟩ := h
  obtain ⟨front', found, hf'⟩ := hf.get now key
  rw [get, found, onFront_ok]
  cases ha : live? now key a with
  | some e =>
    -- the back tier is not asked
    rw [live?_of_within sub ha]
    exact .done (inTiersOn_of_live sub ha hf' hb)
  | none =>
    have tries := (hb.leadsOn hc rfl rfl fun _ _ => Reply.entry.inj).attempt fails n inner
    dsimp only
    rw [get]
    generalize attempt fails n inner (inner.get now key) = answer at tries ⊢
    cases tries with
    | failed => exact .failed ⟨_, hf', hb, settled_within_of_within sub now key⟩
    | done hb' =>
      rw [onBack_ok]
      cases hm : live? now key m with
      | none => exact .done ⟨_, hf', hb', settled_within sub now key⟩
      | some e =>
        obtain ⟨front'', done, hf''⟩ := hf'.put key e
        dsimp only
        rw [done, onFront_ok]
        refine .done ⟨_, hf'', hb', fun k e' he' => ?_⟩
        show (settled now key m).get? k = some e'
        rw [SortedMap.get?_insert] at he'
        split_ifs at he' with hk
        · rw [hk, get?_settled, if_pos rfl, hm, he']
        · exact settled_within sub now key k e' he'

lemma ends_has (h : InTiersOn W front inner m) {key : String} (hc : W now (.has key)) :
    Ends W fails inner (live? now key m).isSome m (settled now key m)
      ((tiered front (unreliable fails n inner)).has now key) := by
  obtain ⟨a, hf, hb, sub⟩ := h
  obtain ⟨front', found, hf'⟩ := hf.has now key
  rw [has, found, onFront_ok]
  cases ha : live? now key a with
  | some e =>
    rw [live?_of_within sub ha]
    exact .done (inTiersOn_of_live sub ha hf' hb)
  | none =>
    have tries := (hb.leadsOn hc rfl rfl fun _ _ => Reply.truth.inj).attempt fails n inner
    dsimp only [Option.isSome]
    rw [has]
    generalize attempt fails n inner (inner.has now key) = answer at tries ⊢
    cases tries with
    | failed => exact .failed ⟨_, hf', hb, settled_within_of_within sub now key⟩
    | done hb' =>
      rw [onBack_ok]
      exact .done ⟨_, hf', hb', settled_within sub now key⟩

/-- The back tier is written first: if that fails, nothing has been written. -/
lemma ends_put (h : InTiersOn W front inner m) {key : String} {e : CacheEntry}
    (hc : W now (.put key e)) :
    Ends W fails inner () m (m.insert key e)
      ((tiered front (unreliable fails n inner)).put key e) := by
  obtain ⟨a, hf, hb, sub⟩ := h
  have tries : Tries W fails inner () (m.insert key e) _ :=
    (hb.leadsOn hc rfl rfl fun _ _ _ => rfl).attempt fails n inner
  rw [put, put]
  generalize attempt fails n inner (inner.put key e) = answer at tries ⊢
  cases tries with
  | failed => exact .failed ⟨a, hf, hb, sub⟩
  | done hb' =>
    obtain ⟨front', done, hf'⟩ := hf.put key e
    rw [onBack_ok, done, onFront_ok]
    exact .done ⟨_, hf', hb', sub.insert key e⟩

/-- The front tier drops first: if the back tier fails, the front tier has lost entries. -/
lemma ends_drop {α β γ : Type} (combine : α → β → γ) {ofFront : Answer α} {ofBack : Answer β}
    {x : α} {y : β} {a' m' : SortedMap CacheEntry} (hb : inner.FollowsOn W m)
    (onFront : Leads ofFront x a') (onBack : Tries W fails inner y m' ofBack) (sub : a'.Within m)
    (sub' : a'.Within m') (back : Store) :
    Ends W fails inner (combine x y) m m'
      (Store.onFront ofFront back fun u front => Store.onBack ofBack front fun v back =>
        (.ok (combine u v), tiered front back)) := by
  obtain ⟨front', rfl, hf'⟩ := onFront
  rw [onFront_ok]
  cases onBack with
  | failed => exact .failed ⟨a', hf', hb, sub⟩
  | done hb' =>
    rw [onBack_ok]
    exact .done ⟨a', hf', hb', sub'⟩

lemma ends_delete (h : InTiersOn W front inner m) {key : String} (hc : W now (.delete key)) :
    Ends W fails inner (m.contains key) m (m.erase key)
      ((tiered front (unreliable fails n inner)).delete key) := by
  obtain ⟨a, hf, hb, sub⟩ := h
  have tries := (hb.leadsOn hc rfl rfl fun _ _ => Reply.truth.inj).attempt fails n inner
  have either : (a.contains key || m.contains key) = m.contains key :=
    Bool.or_eq_right_iff_imp.2 sub.contains
  have less : (a.erase key).Within m := by
    intro k e he
    rw [SortedMap.get?_erase] at he
    split_ifs at he
    exact sub k e he
  have ends := ends_drop (· || ·) hb (hf.delete key) tries less (sub.erase key)
    (unreliable fails n inner)
  rw [either] at ends
  exact ends

lemma ends_clear (h : InTiersOn W front inner m) (hc : W now .clear) :
    Ends W fails inner () m .empty (tiered front (unreliable fails n inner)).clear := by
  obtain ⟨a, hf, hb, sub⟩ := h
  have tries : Tries W fails inner () SortedMap.empty _ :=
    (hb.leadsOn hc rfl rfl fun _ _ _ => rfl).attempt fails n inner
  exact ends_drop (fun _ _ => ()) hb hf.clear tries nofun (SortedMap.within_refl _)
    (unreliable fails n inner)

lemma ends_purge (h : InTiersOn W front inner m) (hc : W now .purge) :
    Ends W fails inner (m.size - (unexpired now m).size) m (unexpired now m)
      ((tiered front (unreliable fails n inner)).purge now) := by
  obtain ⟨a, hf, hb, sub⟩ := h
  have tries := (hb.leadsOn hc rfl rfl fun _ _ => Reply.count.inj).attempt fails n inner
  have greater : max (a.size - (unexpired now a).size) (m.size - (unexpired now m).size) =
      m.size - (unexpired now m).size :=
    max_eq_right (sub.size_sub_size_filter_le _)
  have less : (unexpired now a).Within m :=
    fun k e he => sub k e ((SortedMap.get?_filter_eq_some_iff _ _ k e).1 he).1
  have ends := ends_drop max hb (hf.purge now) tries less (sub.filter _)
    (unreliable fails n inner)
  rw [greater] at ends
  exact ends

lemma ends_size (h : InTiersOn W front inner m) (hc : W now .size) :
    Ends W fails inner m.size m m (tiered front (unreliable fails n inner)).size := by
  obtain ⟨a, hf, hb, sub⟩ := h
  have tries := (hb.leadsOn hc rfl rfl fun _ _ => Reply.count.inj).attempt fails n inner
  rw [size, size]
  generalize attempt fails n inner inner.size = answer at tries ⊢
  cases tries with
  | failed => exact .failed ⟨a, hf, hb, sub⟩
  | done hb' =>
    rw [onBack_ok]
    exact .done ⟨a, hf, hb', sub⟩

lemma Ends.answering {α : Type} {answer : Answer α} {x : α} {m' : SortedMap CacheEntry}
    (h : Ends W fails inner x m m' answer) (reply : α → Reply) :
    Ends W fails inner (reply x) m m' (answering reply answer) := by
  cases h with
  | done tiers => exact .done tiers
  | failed tiers => exact .failed tiers

/-- A call of two tiers is answered from the map of the back tier, or it fails and has not changed
the back tier. -/
theorem ends_call (h : InTiersOn W front inner m) {c : Call} (hc : W now c) :
    Ends W fails inner (replyFrom now m c) m (mapAfter now m c)
      ((tiered front (unreliable fails n inner)).call now c) := by
  cases c with
  | get key => exact (ends_get h hc).answering _
  | put key e => exact (ends_put h hc).answering fun _ => .done
  | has key => exact (ends_has h hc).answering _
  | delete key => exact (ends_delete h hc).answering _
  | clear => exact (ends_clear h hc).answering fun _ => .done
  | purge => exact (ends_purge h hc).answering _
  | size => exact (ends_size h hc).answering _

/-! ## Runs -/

/-- Whatever calls fail in a run, the front tier has nothing that the back tier does not have. -/
theorem after_inTiersOn (h : InTiersOn W front inner m) {calls : List (Timestamp × Call)}
    (allowed : ∀ c ∈ calls, W c.1 c.2) :
    ∃ front' n' inner' m', (tiered front (unreliable fails n inner)).after calls =
      tiered front' (unreliable fails n' inner') ∧ InTiersOn W front' inner' m' := by
  induction calls generalizing front n inner m with
  | nil => exact ⟨front, n, inner, m, rfl, h⟩
  | cons c rest ih =>
    have ends : Ends W fails inner _ m _
        ((tiered front (unreliable fails n inner)).call c.1 c.2) :=
      ends_call h (allowed c List.mem_cons_self)
    have later : ∀ d ∈ rest, W d.1 d.2 := fun d hd => allowed d (List.mem_cons_of_mem c hd)
    rw [after, List.foldl_cons]
    generalize (tiered front (unreliable fails n inner)).call c.1 c.2 = answer at ends ⊢
    cases ends with
    | done tiers => exact ih tiers later
    | failed tiers => exact ih tiers later

lemma FollowsOn.get (h : s.FollowsOn W m) {key : String} (hc : W now (.get key)) :
    (s.get now key).1 = .ok (live? now key m) := by
  have leads : LeadsOn W (s.get now key) (live? now key m) _ :=
    h.leadsOn hc rfl rfl fun _ _ => Reply.entry.inj
  obtain ⟨t, answer, -⟩ := leads
  rw [answer]

/-- What two tiers are at a point of a run, for calls of a kind. -/
structure Coherent (W : Timestamp → Call → Prop) (fails : Nat → Bool) (n : Nat)
    (front inner : Store) : Prop where
  /-- What is live in the front tier is live in the back tier, with value, insertion and span. -/
  live : ∀ now key e, W now (.get key) →
    (front.get now key).1 = .ok (some e) → (inner.get now key).1 = .ok (some e)
  /-- A call that fails leaves the back tier as it is. -/
  unchanged : ∀ now c f, W now c →
    ((tiered front (unreliable fails n inner)).call now c).1 = .error f →
      ∃ front' n', ((tiered front (unreliable fails n inner)).call now c).2 =
        tiered front' (unreliable fails n' inner)
  /-- Where a look-up has a result, it is what is live in the back tier. -/
  found : ∀ now key x, W now (.get key) →
    ((tiered front (unreliable fails n inner)).get now key).1 = .ok x →
      (inner.get now key).1 = .ok x

lemma InTiersOn.coherent (h : InTiersOn W front inner m) (fails : Nat → Bool) (n : Nat) :
    Coherent W fails n front inner where
  live := by
    intro now key e hc found
    obtain ⟨a, hf, hb, sub⟩ := h
    obtain ⟨t, answer, -⟩ := hf.get now key
    rw [answer] at found
    rw [hb.get hc, live?_of_within sub (Except.ok.inj found)]
  unchanged := by
    intro now c f hc failed
    have ends : Ends W fails inner _ m _ ((tiered front (unreliable fails n inner)).call now c) :=
      ends_call h hc
    generalize (tiered front (unreliable fails n inner)).call now c = answer at ends failed ⊢
    cases ends with
    | done => cases failed
    | failed => exact ⟨_, _, rfl⟩
  found := by
    intro now key x hc found
    have ends : Ends W fails inner _ m _ ((tiered front (unreliable fails n inner)).get now key) :=
      ends_get h hc
    obtain ⟨a, -, hb, -⟩ := h
    generalize (tiered front (unreliable fails n inner)).get now key = answer at ends found
    cases ends with
    | done => rw [hb.get hc, ← found]
    | failed => cases found

/-- **Two tiers stay coherent when the back tier fails.**  Let the front tier do what a store in
memory does, and let the back tier do so too for calls of a certain kind, except that it fails and
stays as it is wherever a plan says so.  Then the tiers are coherent after every run of such calls,
whatever the plan is. -/
theorem tiered_coherent (hf : front.Follows a) (hb : inner.FollowsOn W m) (sub : a.Within m)
    (fails : Nat → Bool) (n : Nat) {calls : List (Timestamp × Call)}
    (allowed : ∀ c ∈ calls, W c.1 c.2) :
    ∃ front' n' inner', (tiered front (unreliable fails n inner)).after calls =
        tiered front' (unreliable fails n' inner') ∧ Coherent W fails n' front' inner' := by
  have tiers : InTiersOn W front inner m := ⟨a, hf, hb, sub⟩
  obtain ⟨front', n', inner', m', run, tiers'⟩ := after_inTiersOn tiers allowed
  exact ⟨front', n', inner', run, tiers'.coherent fails n'⟩

/-- An entry is put, another one is not since the back tier fails, and the key is looked up. -/
def duringOutage : List (Timestamp × Call) :=
  [(⟨0, 0⟩, .put "k" shortLived), (⟨1, 0⟩, .put "k" longLived), (⟨2, 500⟩, .get "k")]

theorem tiered_coherent_duringOutage :
    let fails := fun n => n == 1
    let s := tiered (memory .empty) (unreliable fails 0 (table .empty))
    (memory .empty).Follows .empty ∧ (table .empty).FollowsOn WholeCall .empty ∧
      (∀ c ∈ duringOutage, WholeCall c.1 c.2) ∧
      s.replies duringOutage = [.ok .done, .error outage, .ok (.entry (some shortLived))] ∧
      ∃ front n inner, s.after duringOutage = tiered front (unreliable fails n inner) ∧
        Coherent WholeCall fails n front inner := by
  intro fails s
  have front := memory_follows .empty
  have back : (table .empty).FollowsOn WholeCall .empty := table_followsOn (m := .empty) nofun
  have start : Timestamp.Whole ⟨0, 0⟩ := ⟨by decide +kernel, 0, by decide⟩
  have whole : ∀ c ∈ duringOutage, WholeCall c.1 c.2 := by
    simp only [duringOutage, List.forall_mem_cons]
    refine ⟨⟨start.regular, ?_⟩, ⟨by decide +kernel, ?_⟩, ⟨by decide +kernel, nofun⟩, nofun⟩
    · rintro _ _ ⟨⟩
      exact ⟨start, fun d hd => ⟨5000, by decide, (Option.some.inj hd).symm⟩⟩
    · rintro _ _ ⟨⟩
      exact ⟨start, fun d hd => ⟨_, Nat.le_refl _, (Option.some.inj hd).symm⟩⟩
  exact ⟨front, back, whole, by decide +kernel,
    tiered_coherent front back (SortedMap.within_refl _) fails 0 whole⟩

/-- An entry that is kept for longer than a row can say. -/
def endless : CacheEntry := ⟨[118], ⟨0, 0⟩, some (.ofMillis (CacheRow.longestTtl + 1))⟩

/-- **A table in the back does not keep every span**: put into both tiers, an entry has another one
there than in front. -/
theorem not_coherent_of_endless :
    ∃ front n inner,
      (tiered (memory .empty) (unreliable (fun _ => false) 0 (table .empty))).after
          [(⟨0, 0⟩, .put "k" endless)] = tiered front (unreliable (fun _ => false) n inner) ∧
        ¬Coherent (fun _ _ => True) (fun _ => false) n front inner := by
  refine ⟨memory (SortedMap.empty.insert "k" endless), 1,
    table (SortedMap.empty.insert "k" (.ofEntry endless)), rfl, fun coherent => ?_⟩
  have inFront : ((memory (SortedMap.empty.insert "k" endless)).get ⟨0, 0⟩ "k").1 =
      .ok (some endless) := by decide +kernel
  have inBack := coherent.live ⟨0, 0⟩ "k" endless trivial inFront
  exact absurd inBack (by decide +kernel)

end Store

end ApiCanon
