import ApiCanon.Cache.Entry
import ApiCanon.Proofs.Time.Instants

/-!
# Entries and their rows

A row rounds the insertion and the span of an entry to milliseconds, each for itself, and the
deadline as it was before.  All rounding is downwards, so that neither the row (`row_isExpiredAt`)
nor what is read back from it (`reread_isExpiredAt`) outlives the entry.

Of an entry in whole milliseconds a row loses nothing: the entry is read back (`reread_eq`), and
both expire when the milliseconds since its insertion reach its span (`isExpiredAt_eq_isDueAt`,
`row_isExpiredAt_eq_isDueAt`).  A deadline beyond the calendar makes no exception, since no moment
of the calendar reaches it.
-/

namespace ApiCanon

namespace CacheEntry

/-- What is read back from the row of an entry. -/
def reread (e : CacheEntry) : CacheEntry := (CacheRow.ofEntry e).toEntry

variable {e : CacheEntry} {now : Timestamp}

/-- Milliseconds are not rounded again. -/
lemma reread_reread (e : CacheEntry) : e.reread.reread = e.reread := by
  obtain ⟨value, insertedAt, ttl⟩ := e
  cases ttl with
  | none => simp [reread, CacheRow.ofEntry, CacheRow.toEntry]
  | some d => simp [reread, CacheRow.ofEntry, CacheRow.toEntry]

lemma isExpiredAt_iff :
    e.isExpiredAt now = true ↔ ∃ deadline, e.expiresAt? = some deadline ∧ deadline.le now := by
  unfold isExpiredAt
  cases e.expiresAt? with
  | none => simp
  | some deadline => simp

lemma row_isExpiredAt_iff {n : Int} : (CacheRow.ofEntry e).isExpiredAt n = true ↔
    ∃ deadline, e.expiresAt? = some deadline ∧ deadline.millis ≤ n := by
  unfold CacheRow.isExpiredAt CacheRow.ofEntry
  cases e.expiresAt? with
  | none => simp
  | some deadline => simp

/-- A deadline is the sum of insertion and span. -/
lemma sum_of_expiresAt? {deadline : Timestamp} (h : e.expiresAt? = some deadline) :
    ∃ d, e.ttl = some d ∧ (e.insertedAt.plus d).inCalendar = true ∧
      e.insertedAt.plus d = deadline := by
  rw [expiresAt?, Option.bind_eq_some_iff] at h
  obtain ⟨d, ttl, sum⟩ := h
  exact ⟨d, ttl, (Timestamp.after?_eq_some_iff.1 sum).2⟩

/-- The sum of insertion and span is the deadline if the calendar has it. -/
lemma expiresAt?_eq_some {d : Span} (regular : e.insertedAt.Regular) (ttl : e.ttl = some d)
    (inside : (e.insertedAt.plus d).inCalendar = true) :
    e.expiresAt? = some (e.insertedAt.plus d) := by
  rw [expiresAt?, ttl]
  exact Timestamp.after?_eq_some regular inside

/-! ## Rounding -/

/-- A row does not outlive its entry. -/
lemma row_isExpiredAt (even : e.insertedAt.nanos < 1000000000) (h : e.isExpiredAt now = true) :
    (CacheRow.ofEntry e).isExpiredAt now.millis = true := by
  obtain ⟨deadline, at?, reached⟩ := isExpiredAt_iff.1 h
  obtain ⟨d, -, -, rfl⟩ := sum_of_expiresAt? at?
  exact row_isExpiredAt_iff.2
    ⟨_, at?, Timestamp.millis_le_of_le (Timestamp.nanos_plus_lt even d) reached⟩

end CacheEntry

/-! ## Whole milliseconds -/

/-- A moment of the calendar is a whole number of milliseconds. -/
structure Timestamp.Whole (t : Timestamp) : Prop where
  calendar : t.inCalendar = true
  whole : ∃ n : Int, t = .ofMillis n

lemma Timestamp.Whole.ofMillis_millis {t : Timestamp} (h : t.Whole) : .ofMillis t.millis = t := by
  obtain ⟨n, rfl⟩ := h.whole
  rw [Timestamp.millis_ofMillis]

lemma Timestamp.Whole.regular {t : Timestamp} (h : t.Whole) : t.Regular := by
  refine ⟨h.calendar, ?_⟩
  rw [← h.ofMillis_millis]
  exact Timestamp.nanos_ofMillis_lt _

namespace CacheEntry

/-- The insertion of an entry and its span are whole numbers of milliseconds, of which the span has
no more than a row holds. -/
structure Whole (e : CacheEntry) : Prop where
  insertedAt : e.insertedAt.Whole
  ttl : ∀ d ∈ e.ttl, ∃ n ≤ CacheRow.longestTtl, d = .ofMillis n

/-- Whether the milliseconds since the insertion of an entry have reached its span. -/
def isDueAt (e : CacheEntry) (now : Int) : Bool :=
  match e.ttl with
  | some d => e.insertedAt.millis + d.millis ≤ now
  | none => false

variable {e : CacheEntry} {now : Timestamp}

/-- **An entry in whole milliseconds is read back.** -/
lemma Whole.reread_eq (h : e.Whole) : e.reread = e := by
  obtain ⟨value, insertedAt, ttl⟩ := e
  have inserted : Timestamp.ofMillis insertedAt.millis = insertedAt :=
    h.insertedAt.ofMillis_millis
  cases ttl with
  | none => simp [reread, CacheRow.ofEntry, CacheRow.toEntry, inserted]
  | some d =>
    obtain ⟨n, short, rfl⟩ := h.ttl d rfl
    simp [reread, CacheRow.ofEntry, CacheRow.toEntry, inserted, Nat.min_eq_left short]

/-- A whole sum of insertion and span is the deadline if some moment of the calendar reaches it. -/
lemma Whole.deadline (h : e.Whole) (hnow : now.Regular) (due : e.isDueAt now.millis = true) :
    ∃ deadline, e.expiresAt? = some deadline ∧ deadline.millis ≤ now.millis ∧
      deadline.le now = true := by
  cases ttl : e.ttl with
  | none =>
    rw [isDueAt, ttl] at due
    cases due
  | some d =>
    rw [isDueAt, ttl] at due
    have sum : e.insertedAt.millis + d.millis ≤ now.millis := of_decide_eq_true due
    obtain ⟨n, -, rfl⟩ := h.ttl d ttl
    obtain ⟨a, start⟩ := h.insertedAt.whole
    have even := h.insertedAt.regular.even
    have reached : (e.insertedAt.plus (.ofMillis n)).instant ≤ now.instant := by
      rw [start, Timestamp.millis_ofMillis, Span.millis_ofMillis, now.millis_eq] at sum
      rw [Timestamp.instant_plus even, start, Timestamp.instant_ofMillis]
      show a * 1000000 + ((n * 1000000 : Nat) : Int) ≤ now.instant
      omega
    have le : (e.insertedAt.plus (.ofMillis n)).le now = true :=
      (Timestamp.le_iff_instant (Timestamp.nanos_plus_lt even _) hnow.even).2 reached
    have inside := Timestamp.inCalendar_of_between (Timestamp.nanos_plus_lt even _)
      h.insertedAt.calendar hnow (Timestamp.seconds_le_seconds_plus even (.ofMillis n)) reached
    exact ⟨_, expiresAt?_eq_some h.insertedAt.regular ttl inside,
      Timestamp.millis_le_of_le (Timestamp.nanos_plus_lt even _) le, le⟩

/-- A row in whole milliseconds that has expired is due. -/
lemma Whole.isDueAt_of_row (h : e.Whole) {n : Int}
    (expired : (CacheRow.ofEntry e).isExpiredAt n = true) : e.isDueAt n = true := by
  obtain ⟨deadline, at?, reached⟩ := row_isExpiredAt_iff.1 expired
  obtain ⟨d, ttl, -, rfl⟩ := sum_of_expiresAt? at?
  obtain ⟨k, -, rfl⟩ := h.ttl d ttl
  obtain ⟨a, start⟩ := h.insertedAt.whole
  have even := h.insertedAt.regular.even
  rw [Timestamp.millis_eq, Timestamp.instant_plus even, start,
    Timestamp.instant_ofMillis] at reached
  rw [isDueAt, ttl]
  refine decide_eq_true ?_
  rw [start, Timestamp.millis_ofMillis, Span.millis_ofMillis]
  have length : (Span.ofMillis k).nanos = k * 1000000 := rfl
  omega

/-- An entry in whole milliseconds has expired exactly if it is due. -/
lemma Whole.isExpiredAt_eq_isDueAt (h : e.Whole) (hnow : now.Regular) :
    e.isExpiredAt now = e.isDueAt now.millis := by
  rw [Bool.eq_iff_iff]
  constructor
  · intro expired
    exact h.isDueAt_of_row (row_isExpiredAt h.insertedAt.regular.even expired)
  · intro due
    obtain ⟨deadline, at?, -, le⟩ := h.deadline hnow due
    exact isExpiredAt_iff.2 ⟨deadline, at?, le⟩

/-- So has its row. -/
lemma Whole.row_isExpiredAt_eq_isDueAt (h : e.Whole) (hnow : now.Regular) :
    (CacheRow.ofEntry e).isExpiredAt now.millis = e.isDueAt now.millis := by
  rw [Bool.eq_iff_iff]
  constructor
  · exact h.isDueAt_of_row
  · intro due
    obtain ⟨deadline, at?, reached, -⟩ := h.deadline hnow due
    exact row_isExpiredAt_iff.2 ⟨deadline, at?, reached⟩

end CacheEntry

end ApiCanon
