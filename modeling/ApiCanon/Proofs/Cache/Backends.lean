import ApiCanon.Proofs.Cache.Rows
import ApiCanon.Proofs.Cache.Tiers

/-!
# Memory and table as one store

Of entries in whole milliseconds a store in memory and a store in a table give the same answers,
those of a map that compares the milliseconds since the insertion of an entry with its span
(`replies_eq_served`).  The one store computes a deadline whenever it is asked, the other keeps it
in the row; the map knows no deadlines at all, and so none that lie beyond the calendar.  The clock
may be finer than that: nothing comes due within a millisecond.

The rows of the table are at all times the images of the entries of the map.
-/

namespace ApiCanon

namespace Store

/-! ## What a map answers -/

/-- What a map answers to a call, and the map after it.  An entry that is due is dropped when it is
asked for and when the map is purged, and counts until then. -/
def serve (now : Int) (m : SortedMap CacheEntry) : Call → Reply × SortedMap CacheEntry
  | .get key =>
    match m.get? key with
    | none => (.entry none, m)
    | some e => if e.isDueAt now then (.entry none, m.erase key) else (.entry (some e), m)
  | .put key e => (.done, m.insert key e)
  | .has key =>
    match m.get? key with
    | none => (.truth false, m)
    | some e => if e.isDueAt now then (.truth false, m.erase key) else (.truth true, m)
  | .delete key => (.truth (m.contains key), m.erase key)
  | .clear => (.done, .empty)
  | .purge =>
    (.count (m.filter fun _ e => e.isDueAt now).size, m.filter fun _ e => !e.isDueAt now)
  | .size => (.count m.size, m)

/-- What a map answers to some calls, each with its moment. -/
def served (m : SortedMap CacheEntry) : List (Timestamp × Call) → List Reply
  | [] => []
  | c :: rest => (serve c.1.millis m c.2).1 :: served (serve c.1.millis m c.2).2 rest

/-- Whatever the precision of the clock, an entry that is put is in whole milliseconds. -/
structure WholeCall (now : Timestamp) (c : Call) : Prop where
  moment : now.Regular
  entry : ∀ key e, c = .put key e → e.Whole

/-- All entries of a map are in whole milliseconds. -/
def AllWhole (m : SortedMap CacheEntry) : Prop := ∀ key e, m.get? key = some e → e.Whole

/-- The rows of the entries of a map. -/
def rows (m : SortedMap CacheEntry) : SortedMap CacheRow := m.mapValues CacheRow.ofEntry

variable {m : SortedMap CacheEntry} {now : Timestamp} {c : Call}

/-! ## One call -/

/-- A map of entries in whole milliseconds remains one. -/
lemma AllWhole.serve (whole : AllWhole m) (hc : WholeCall now c) (n : Int) :
    AllWhole (serve n m c).2 := by
  have erased : ∀ key, AllWhole (m.erase key) := by
    intro key k e he
    rw [SortedMap.get?_erase] at he
    split_ifs at he
    exact whole k e he
  cases c with
  | get key | has key =>
    rw [Store.serve]
    split
    · exact whole
    · split_ifs
      · exact erased key
      · exact whole
  | put key e =>
    intro k e' he
    rw [Store.serve, SortedMap.get?_insert] at he
    split_ifs at he
    · obtain rfl := Option.some.inj he
      exact hc.entry key e rfl
    · exact whole k e' he
  | delete key => exact erased key
  | clear => exact nofun
  | purge =>
    intro k e he
    exact whole k e ((SortedMap.get?_filter_eq_some_iff _ _ k e).1 he).1
  | size => exact whole

/-- A store in memory answers as its map does. -/
lemma memory_call_eq_serve (whole : AllWhole m) (hnow : now.Regular) (c : Call) :
    (memory m).call now c = (.ok (serve now.millis m c).1, memory (serve now.millis m c).2) := by
  have expired : ∀ key e, m.get? key = some e → e.isExpiredAt now = e.isDueAt now.millis :=
    fun key e he => (whole key e he).isExpiredAt_eq_isDueAt hnow
  cases c with
  | get key =>
    rw [call, get, serve]
    cases found : m.get? key with
    | none => rfl
    | some e =>
      dsimp only
      rw [expired key e found]
      cases e.isDueAt now.millis <;> rfl
  | has key =>
    rw [call, has, serve]
    cases found : m.get? key with
    | none => rfl
    | some e =>
      dsimp only
      rw [expired key e found]
      cases e.isDueAt now.millis <;> rfl
  | purge =>
    have live : (m.filter fun _ e => !e.isExpiredAt now) =
        m.filter fun _ e => !e.isDueAt now.millis :=
      SortedMap.filter_congr fun key e he => by rw [expired key e he]
    rw [call, purge, serve]
    dsimp only
    rw [live, SortedMap.size_sub_size_filter]
    simp only [Bool.not_not]
    rfl
  | put key e => rfl
  | delete key => rfl
  | clear => rfl
  | size => rfl

/-- A store in a table of the rows of a map answers as the map does. -/
lemma table_call_eq_serve (whole : AllWhole m) (hnow : now.Regular) (c : Call) :
    (table (rows m)).call now c =
      (.ok (serve now.millis m c).1, table (rows (serve now.millis m c).2)) := by
  have expired : ∀ key e, m.get? key = some e →
      (CacheRow.ofEntry e).isExpiredAt now.millis = e.isDueAt now.millis :=
    fun key e he => (whole key e he).row_isExpiredAt_eq_isDueAt hnow
  have erased : ∀ key, (rows m).erase key = rows (m.erase key) :=
    fun key => (SortedMap.mapValues_erase _ m key).symm
  cases c with
  | get key =>
    rw [call, get, serve, rows, SortedMap.get?_mapValues]
    cases found : m.get? key with
    | none => rfl
    | some e =>
      have back : (CacheRow.ofEntry e).toEntry = e := (whole key e found).reread_eq
      dsimp only [Option.map_some]
      rw [expired key e found, ← rows, erased, back]
      cases e.isDueAt now.millis <;> rfl
  | has key =>
    rw [call, has, serve, rows, SortedMap.get?_mapValues]
    cases found : m.get? key with
    | none => rfl
    | some e =>
      dsimp only [Option.map_some]
      rw [expired key e found, ← rows, erased]
      cases e.isDueAt now.millis <;> rfl
  | put key e =>
    rw [call, put, serve, rows, rows, SortedMap.mapValues_insert]
    rfl
  | delete key =>
    rw [call, delete, serve, erased, rows, SortedMap.contains_mapValues]
    rfl
  | purge =>
    have live : ((rows m).filter fun _ r => !r.isExpiredAt now.millis) =
        rows (m.filter fun _ e => !e.isDueAt now.millis) := by
      rw [rows, ← SortedMap.mapValues_filter, rows]
      congr 1
      exact SortedMap.filter_congr fun key e he => by rw [expired key e he]
    rw [call, purge, serve]
    dsimp only
    rw [live, rows, rows, SortedMap.size_mapValues, SortedMap.size_mapValues,
      SortedMap.size_sub_size_filter]
    simp only [Bool.not_not]
    rfl
  | clear => rfl
  | size =>
    rw [call, size, serve, rows, SortedMap.size_mapValues]
    rfl

/-! ## Runs -/

lemma replies_eq_map_served (whole : AllWhole m) {calls : List (Timestamp × Call)}
    (hcalls : ∀ c ∈ calls, WholeCall c.1 c.2) :
    (memory m).replies calls = (served m calls).map .ok ∧
      (table (rows m)).replies calls = (served m calls).map .ok := by
  induction calls generalizing m with
  | nil => exact ⟨rfl, rfl⟩
  | cons c rest ih =>
    have hc := hcalls c List.mem_cons_self
    obtain ⟨inMemory, inTable⟩ := ih (whole.serve hc c.1.millis) fun d hd =>
      hcalls d (List.mem_cons_of_mem c hd)
    rw [replies, replies, memory_call_eq_serve whole hc.moment,
      table_call_eq_serve whole hc.moment, inMemory, inTable]
    exact ⟨rfl, rfl⟩

/-- **Memory and table give the same answers**, those of a map. -/
theorem replies_eq_served {calls : List (Timestamp × Call)}
    (whole : ∀ c ∈ calls, WholeCall c.1 c.2) :
    (memory .empty).replies calls = (served .empty calls).map .ok ∧
      (table .empty).replies calls = (served .empty calls).map .ok :=
  replies_eq_map_served (m := .empty) nofun whole

/-- An entry that is kept for the longest span, with a deadline beyond the calendar. -/
def longLived : CacheEntry := ⟨[2], ⟨0, 0⟩, some (.ofMillis CacheRow.longestTtl)⟩

/-- Calls that put both kinds of entries and look for them when one of them is due. -/
def pastDeadline : List (Timestamp × Call) :=
  [(⟨0, 0⟩, .put "k" shortLived), (⟨0, 0⟩, .put "l" longLived), (⟨4, 999999999⟩, .get "k"),
    (⟨5, 0⟩, .size), (⟨5, 0⟩, .get "k"), (⟨5, 0⟩, .size), (⟨5, 0⟩, .has "l"), (⟨5, 0⟩, .purge)]

theorem replies_eq_served_pastDeadline :
    (∀ c ∈ pastDeadline, WholeCall c.1 c.2) ∧
      (memory .empty).replies pastDeadline = (table .empty).replies pastDeadline ∧
      (table .empty).replies pastDeadline =
        [.ok .done, .ok .done, .ok (.entry (some shortLived)), .ok (.count 2), .ok (.entry none),
          .ok (.count 1), .ok (.truth true), .ok (.count 0)] := by
  have start : Timestamp.Whole ⟨0, 0⟩ := ⟨by decide +kernel, 0, by decide⟩
  have stop : Timestamp.Regular ⟨5, 0⟩ := by decide +kernel
  have span : ∀ {n : Nat} {value : Bytes}, n ≤ CacheRow.longestTtl →
      CacheEntry.Whole ⟨value, ⟨0, 0⟩, some (.ofMillis n)⟩ := by
    intro n value short
    refine ⟨start, fun d hd => ⟨n, short, ?_⟩⟩
    exact (Option.some.inj hd).symm
  have whole : ∀ c ∈ pastDeadline, WholeCall c.1 c.2 := by
    simp only [pastDeadline, List.forall_mem_cons]
    refine ⟨⟨start.regular, ?_⟩, ⟨start.regular, ?_⟩, ⟨by decide +kernel, nofun⟩, ⟨stop, nofun⟩,
      ⟨stop, nofun⟩, ⟨stop, nofun⟩, ⟨stop, nofun⟩, ⟨stop, nofun⟩, nofun⟩
    · rintro _ _ ⟨⟩
      exact span (by decide)
    · rintro _ _ ⟨⟩
      exact span (Nat.le_refl _)
  obtain ⟨inMemory, inTable⟩ := replies_eq_served whole
  exact ⟨whole, inMemory.trans inTable.symm, inTable.trans (by decide +kernel)⟩

end Store

end ApiCanon
