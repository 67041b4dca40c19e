import ApiCanon.Time.Timestamp
import Mathlib.Tactic.Lemma
import Mathlib.Tactic.SplitIfs

/-!
# Moments as numbers

Outside of leap seconds a moment is a number of nanoseconds since 1970 (`instant`).  Moments are
compared, moved and rounded to milliseconds as these numbers are.

Of moments outside of leap seconds that are compared with a third one, only the third may lie in a
leap second: within one, a moment is later than the end of the second before it, and its number of
milliseconds runs ahead.
-/

namespace ApiCanon.Timestamp

/-- The number of nanoseconds since 1970. -/
def instant (t : Timestamp) : Int := t.seconds * 1000000000 + t.nanos

/-- A moment of the calendar outside of leap seconds, as a clock shows it. -/
structure Regular (t : Timestamp) : Prop where
  calendar : t.inCalendar = true
  even : t.nanos < 1000000000

instance (t : Timestamp) : Decidable t.Regular :=
  decidable_of_iff (t.inCalendar = true ∧ t.nanos < 1000000000)
    ⟨fun ⟨calendar, even⟩ => ⟨calendar, even⟩, fun ⟨calendar, even⟩ => ⟨calendar, even⟩⟩

variable {s t u : Timestamp}

/-! ## Order -/

lemma le_iff : s.le t = true ↔
    s.seconds < t.seconds ∨ s.seconds = t.seconds ∧ s.nanos ≤ t.nanos := by
  simp [le]

lemma le_iff_instant (hs : s.nanos < 1000000000) (ht : t.nanos < 1000000000) :
    s.le t = true ↔ s.instant ≤ t.instant := by
  rw [le_iff, instant, instant]
  omega

/-- What lies between moments of the calendar lies in it. -/
lemma inCalendar_of_between (ht : t.nanos < 1000000000) (hs : s.inCalendar = true)
    (hu : u.Regular) (low : s.seconds ≤ t.seconds) (high : t.instant ≤ u.instant) :
    t.inCalendar = true := by
  have least := hu.calendar
  have even := hu.even
  unfold inCalendar at hs least ⊢
  rw [Bool.and_eq_true, decide_eq_true_eq, decide_eq_true_eq] at hs least ⊢
  rw [instant, instant] at high
  omega

/-! ## Milliseconds -/

lemma millis_eq (t : Timestamp) : t.millis = t.instant / 1000000 := by
  rw [millis, instant]
  omega

/-- Whole milliseconds do not decrease, whether or not the later moment is in a leap second. -/
lemma millis_le_of_le (hs : s.nanos < 1000000000) (h : s.le t = true) : s.millis ≤ t.millis := by
  rw [le_iff] at h
  rw [millis, millis]
  omega

lemma nanos_ofMillis_lt (n : Int) : (ofMillis n).nanos < 1000000000 := by
  show (Int.fmod n 1000).toNat * 1000000 < 1000000000
  rw [Int.fmod_eq_emod_of_nonneg n (by omega)]
  omega

lemma seconds_ofMillis (n : Int) : (ofMillis n).seconds = n / 1000 :=
  Int.fdiv_eq_ediv_of_nonneg n (by omega)

lemma instant_ofMillis (n : Int) : (ofMillis n).instant = n * 1000000 := by
  show Int.fdiv n 1000 * 1000000000 + ((Int.fmod n 1000).toNat * 1000000 : Nat) = n * 1000000
  rw [Int.fdiv_eq_ediv_of_nonneg n (by omega), Int.fmod_eq_emod_of_nonneg n (by omega)]
  omega

@[simp] lemma millis_ofMillis (n : Int) : (ofMillis n).millis = n := by
  rw [millis_eq, instant_ofMillis]
  omega

lemma seconds_ofMillis_millis (ht : t.nanos < 1000000000) :
    (ofMillis t.millis).seconds = t.seconds := by
  rw [seconds_ofMillis, millis]
  omega

/-- Rounding a moment to milliseconds keeps it in the calendar. -/
lemma Regular.ofMillis_millis (h : t.Regular) : (ofMillis t.millis).Regular := by
  refine ⟨?_, nanos_ofMillis_lt _⟩
  have same := seconds_ofMillis_millis h.even
  have calendar := h.calendar
  unfold inCalendar at calendar ⊢
  rw [same]
  exact calendar

/-! ## Spans -/

lemma nanos_plus_lt (ht : t.nanos < 1000000000) (d : Span) : (t.plus d).nanos < 1000000000 := by
  unfold plus
  dsimp only
  rw [if_neg (by omega), if_neg (by omega)]
  exact Nat.mod_lt _ (by omega)

lemma instant_plus (ht : t.nanos < 1000000000) (d : Span) :
    (t.plus d).instant = t.instant + d.nanos := by
  unfold plus
  dsimp only
  rw [if_neg (by omega), if_neg (by omega), instant, instant]
  dsimp only
  omega

lemma seconds_le_seconds_plus (ht : t.nanos < 1000000000) (d : Span) :
    t.seconds ≤ (t.plus d).seconds := by
  unfold plus
  dsimp only
  rw [if_neg (by omega), if_neg (by omega)]
  dsimp only
  omega

lemma after?_eq_some_iff {d : Span} : t.after? d = some u ↔
    d.nanos ≤ longestSpan.nanos ∧ (t.plus d).inCalendar = true ∧ t.plus d = u := by
  unfold after?
  split_ifs with fits
  · rw [Option.some.injEq]
    exact ⟨fun h => ⟨fits.1, fits.2, h⟩, fun h => h.2.2⟩
  · exact iff_of_false nofun fun h => fits ⟨h.1, h.2.1⟩

/-- The calendar is shorter than the longest span: a sum that lies in it is always given. -/
lemma after?_eq_some {d : Span} (h : t.Regular) (inside : (t.plus d).inCalendar = true) :
    t.after? d = some (t.plus d) := by
  have least : daysOfDate leastYear 1 1 = -96465292 := by decide
  have greatest : daysOfDate (greatestYear + 1) 1 1 = 95026237 := by decide
  have longest : longestSpan.nanos = 9223372036854775807000000 := by decide
  have start := h.calendar
  have sum := instant_plus h.even d
  have even := nanos_plus_lt h.even d
  unfold inCalendar at start inside
  rw [Bool.and_eq_true, decide_eq_true_eq, decide_eq_true_eq, least, greatest] at start inside
  rw [instant, instant] at sum
  refine after?_eq_some_iff.2 ⟨?_, ?_, rfl⟩
  · omega
  · unfold inCalendar
    rw [Bool.and_eq_true, decide_eq_true_eq, decide_eq_true_eq, least, greatest]
    exact inside

end ApiCanon.Timestamp

namespace ApiCanon.Span

@[simp] lemma millis_ofMillis (n : Nat) : (ofMillis n).millis = n := by
  show n * 1000000 / 1000000 = n
  omega

end ApiCanon.Span
