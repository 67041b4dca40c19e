import ApiCanon.Proofs.Fallible
import ApiCanon.Time.Timestamp
import Mathlib.Algebra.Group.Nat.Defs
import Mathlib.Tactic.Lemma
import Mathlib.Tactic.Set
import Mathlib.Tactic.SplitIfs

/-!
# Moments are read back

The text of a moment is read as the moment (`read_text`), given that the moment lies in the calendar
and that a leap second, if it is one, ends a minute.  The fields of the text are read one by one;
each of them is a number with a fixed number of digits, or one that ends where its digits do.

Nothing else comes back: whatever text is read as a moment, it is one of the calendar, and a leap
second of it ends a minute (`ensures_read`), as an offset from universal time is in whole minutes.

The date of a number of days is a date whose number of days it is (`daysOfDate_dateOfDays`).  Both
count eras of 400 years, which begin in March, so that a leap day is the last day of its year.  The
only step that takes thought is the year within an era: the count of days less the leap days before
it, of which the quotients by 1460, 36524 and 146096 are an estimate.
-/

namespace ApiCanon.Timestamp

/-! ## The calendar -/

/-- The first day of a year of an era, counted from the beginning of the era. -/
def firstDay (yearOfEra : Int) : Int := 365 * yearOfEra + yearOfEra / 4 - yearOfEra / 100

/-- The year of a day of an era. -/
def yearOfDay (day : Int) : Int := (day - day / 1460 + day / 36524 - day / 146096) / 365

lemma yearOfDay_bounds {day : Int} (low : 0 ≤ day) (high : day < 146097) :
    0 ≤ yearOfDay day ∧ yearOfDay day < 400 := by
  unfold yearOfDay
  omega

/-- A day lies in its year. -/
lemma firstDay_yearOfDay {day : Int} (low : 0 ≤ day) (high : day < 146097) :
    firstDay (yearOfDay day) ≤ day ∧ day ≤ firstDay (yearOfDay day) + 365 := by
  have ⟨first, last⟩ := yearOfDay_bounds low high
  unfold firstDay
  unfold yearOfDay at *
  generalize year : (day - day / 1460 + day / 36524 - day / 146096) / 365 = y at *
  -- The leap days that fall out at the ends of centuries are told apart by the century, once as it
  -- is estimated from the day and once as it comes out for the year.
  have estimate : day / 36524 = 0 ∨ day / 36524 = 1 ∨ day / 36524 = 2 ∨ day / 36524 = 3 ∨
      day / 36524 = 4 := by omega
  have century : y / 100 = 0 ∨ y / 100 = 1 ∨ y / 100 = 2 ∨ y / 100 = 3 := by omega
  have era : day / 146096 = day / 36524 / 4 := by omega
  rcases estimate with e | e | e | e | e <;> rw [e] at era year <;>
    rcases century with c | c | c | c <;> omega

/-- The parts of the date of a day, with the day itself put together from them. -/
lemma dateOfDays_spec (days : Int) : ∃ era year month day : Int,
    (0 ≤ year ∧ year < 400) ∧ (0 ≤ month ∧ month ≤ 11) ∧ (1 ≤ day ∧ day ≤ 31) ∧
      days + 719468 = era * 146097 + firstDay year + (153 * month + 2) / 5 + day - 1 ∧
      dateOfDays days =
        let m := if month < 10 then month + 3 else month - 9
        (if m ≤ 2 then year + era * 400 + 1 else year + era * 400, m, day) := by
  set z := days + 719468 with hz
  have eras : Int.fdiv z 146097 = z / 146097 := Int.fdiv_eq_ediv_of_nonneg _ (by omega)
  have low : 0 ≤ z - z / 146097 * 146097 := by omega
  have high : z - z / 146097 * 146097 < 146097 := by omega
  set doe := z - z / 146097 * 146097 with hdoe
  have ⟨first, last⟩ := firstDay_yearOfDay low high
  set doy := doe - firstDay (yearOfDay doe) with hdoy
  refine ⟨z / 146097, yearOfDay doe, (5 * doy + 2) / 153,
    doy - (153 * ((5 * doy + 2) / 153) + 2) / 5 + 1, yearOfDay_bounds low high, by omega, by omega,
    by omega, ?_⟩
  simp only [dateOfDays, ← hz, eras, ← hdoe]
  rfl

/-- The date of a day is read back as the day. -/
theorem daysOfDate_dateOfDays (days : Int) :
    daysOfDate (dateOfDays days).1 (dateOfDays days).2.1 (dateOfDays days).2.2 = days := by
  obtain ⟨era, year, month, day, ⟨y0, y1⟩, ⟨m0, m1⟩, ⟨d0, d1⟩, count, date⟩ := dateOfDays_spec days
  rw [date]
  dsimp only
  unfold daysOfDate firstDay at *
  have eras : Int.fdiv (year + era * 400) 400 = era := by
    rw [Int.fdiv_eq_ediv_of_nonneg _ (by omega)]
    omega
  by_cases late : month < 10
  · have m : ¬month + 3 ≤ 2 := by omega
    have m' : month + 3 > 2 := by omega
    simp only [late, if_true, m, if_false, m', eras]
    omega
  · have m : month - 9 ≤ 2 := by omega
    have m' : ¬month - 9 > 2 := by omega
    simp only [late, if_false, m, if_true, m', Int.add_sub_cancel, eras]
    omega

/-- The date of a day is a date. -/
lemma isDate_dateOfDays (days : Int) :
    isDate (dateOfDays days).1 (dateOfDays days).2.1 (dateOfDays days).2.2 = true := by
  have back := daysOfDate_dateOfDays days
  obtain ⟨era, year, month, day, -, ⟨m0, m1⟩, ⟨d0, d1⟩, -, date⟩ := dateOfDays_spec days
  rw [isDate, back, date]
  dsimp only
  split_ifs <;> simp <;> omega

/-- Months and days have two digits at most. -/
lemma dateOfDays_bounds (days : Int) :
    (1 ≤ (dateOfDays days).2.1 ∧ (dateOfDays days).2.1 ≤ 12) ∧
      1 ≤ (dateOfDays days).2.2 ∧ (dateOfDays days).2.2 ≤ 31 := by
  obtain ⟨era, year, month, day, -, ⟨m0, m1⟩, ⟨d0, d1⟩, -, date⟩ := dateOfDays_spec days
  rw [date]
  dsimp only
  split_ifs <;> omega

/-- The years of the calendar have six digits. -/
lemma dateOfDays_year_bounds {days : Int} (low : daysOfDate leastYear 1 1 ≤ days)
    (high : days < daysOfDate (greatestYear + 1) 1 1) :
    -1000000 < (dateOfDays days).1 ∧ (dateOfDays days).1 < 1000000 := by
  have least : daysOfDate leastYear 1 1 = -96465292 := by decide
  have greatest : daysOfDate (greatestYear + 1) 1 1 = 95026237 := by decide
  obtain ⟨era, year, month, day, ⟨y0, y1⟩, ⟨m0, m1⟩, ⟨d0, d1⟩, count, date⟩ := dateOfDays_spec days
  rw [date]
  unfold firstDay at count
  dsimp only
  split_ifs <;> omega

/-! ## Numbers -/

lemma isDigit_of_mem_padded {width n : Nat} : ∀ c ∈ (padded width n).toList, c.isDigit = true := by
  intro c hc
  rw [padded, String.toList_ofList] at hc
  rcases List.mem_append.1 hc with hc | hc
  · rw [List.eq_of_mem_replicate hc]
    rfl
  · exact Nat.isDigit_of_mem_toDigits (by omega) (by omega) hc

lemma ofDigitChars_padded (width n : Nat) : Nat.ofDigitChars 10 (padded width n).toList 0 = n := by
  rw [padded, String.toList_ofList, Nat.ofDigitChars_append, Nat.ofDigitChars_replicate_zero,
    Nat.mul_zero, Nat.ofDigitChars_ten_toDigits]

lemma length_padded {width n : Nat} (pos : 0 < width) (fits : n < 10 ^ width) :
    (padded width n).toList.length = width := by
  have short := (Nat.length_toDigits_le_iff (b := 10) (by omega) pos).2 fits
  rw [padded, String.toList_ofList, List.length_append, List.length_replicate]
  omega

lemma padded_ne_nil (width n : Nat) : (padded width n).toList ≠ [] := by
  rw [padded, String.toList_ofList]
  exact List.append_ne_nil_of_right_ne_nil _ Nat.toDigits_ne_nil

lemma le_ofDigitChars (ds : List Char) (n : Nat) : n ≤ Nat.ofDigitChars 10 ds n := by
  rw [Nat.ofDigitChars_eq_ofDigitChars_zero]
  exact Nat.le_add_right_of_le (Nat.le_mul_of_pos_left n (Nat.pow_pos (by omega)))

/-- Digits are read up to the width of the number, or up to their end. -/
lemma digits_append {ds rest : List Char} (all : ∀ c ∈ ds, c.isDigit = true) {width : Nat}
    {acc : Option Nat} (room : ds.length ≤ width) (some : ds = [] → acc.isSome = true)
    (ends : ds.length = width ∨ ∀ c ∈ rest.head?, c.isDigit = false)
    (fits : Nat.ofDigitChars 10 ds (acc.getD 0) < Nat.pow 2 63) :
    digits width acc (ds ++ rest) = .ok (Nat.ofDigitChars 10 ds (acc.getD 0), rest) := by
  induction ds generalizing width acc with
  | nil =>
    obtain ⟨n, rfl⟩ := Option.isSome_iff_exists.1 (some rfl)
    cases rest with
    | nil => cases width <;> rfl
    | cons c r =>
      cases width with
      | zero => rfl
      | succ w =>
        have stop : c.isDigit = false := by simpa using ends
        simp [digits, stop]
  | cons c ds ih =>
    obtain ⟨width, rfl⟩ : ∃ w, width = w + 1 := ⟨width - 1, by simp at room; omega⟩
    have value : Nat.ofDigitChars 10 (c :: ds) (acc.getD 0) =
        Nat.ofDigitChars 10 ds (acc.getD 0 * 10 + (c.toNat - 48)) := by
      rw [Nat.ofDigitChars_cons, Nat.mul_comm]
      rfl
    rw [value] at fits ⊢
    have small := Nat.lt_of_le_of_lt (le_ofDigitChars ds _) fits
    simp only [List.cons_append, digits, all c List.mem_cons_self, if_true, if_pos small]
    refine ih (fun d hd => all d (List.mem_cons_of_mem c hd)) ?_ (fun _ => rfl) ?_ fits
    · simpa using room
    · simpa using ends

lemma trimLeft_cons {c : Char} (r : List Char) (h : Text.isBlank c = false) :
    Text.trimLeft (c :: r) = c :: r := by
  simp [Text.trimLeft, h]

lemma range_of_isDigit {c : Char} (h : c.isDigit = true) : 48 ≤ c.toNat ∧ c.toNat ≤ 57 := by
  simpa [Char.isDigit, UInt32.le_iff_toNat_le] using h

lemma not_isBlank_of_isDigit {c : Char} (h : c.isDigit = true) : Text.isBlank c = false := by
  have range := range_of_isDigit h
  simp only [Text.isBlank, Bool.or_eq_false_iff, Bool.and_eq_false_iff, decide_eq_false_iff_not,
    beq_eq_false_iff_ne]
  omega

/-- A number begins with a digit. -/
lemma padded_eq_cons (width n : Nat) :
    ∃ c r, (padded width n).toList = c :: r ∧ c.isDigit = true := by
  obtain ⟨c, r, h⟩ := List.exists_cons_of_ne_nil (padded_ne_nil width n)
  exact ⟨c, r, h, isDigit_of_mem_padded c (h ▸ List.mem_cons_self)⟩

lemma trimLeft_padded (width n : Nat) (rest : List Char) :
    Text.trimLeft ((padded width n).toList ++ rest) = (padded width n).toList ++ rest := by
  obtain ⟨c, r, h, digit⟩ := padded_eq_cons width n
  rw [h, List.cons_append, trimLeft_cons _ (not_isBlank_of_isDigit digit)]

/-! ## Fields -/

/-- A number of as many digits as are read. -/
lemma digits_padded {width n : Nat} (pos : 0 < width) (narrow : width ≤ 9) (fits : n < 10 ^ width)
    (rest : List Char) : digits width none ((padded width n).toList ++ rest) = .ok (n, rest) := by
  have length := length_padded pos fits
  have value := ofDigitChars_padded width n
  have small : 10 ^ width ≤ 10 ^ 9 := Nat.pow_le_pow_right (by omega) narrow
  rw [digits_append isDigit_of_mem_padded (Nat.le_of_eq length)
    (fun none => absurd none (padded_ne_nil width n)) (Or.inl length), Option.getD_none, value]
  rw [Option.getD_none, value]
  exact Nat.lt_of_lt_of_le fits (Nat.le_trans small (by decide))

lemma field_padded {low high n : Nat} (bounds : low ≤ n ∧ n ≤ high) (fits : n < 100)
    (rest : List Char) : field low high ((padded 2 n).toList ++ rest) = .ok (n, rest) := by
  rw [field, trimLeft_padded, digits_padded (by omega) (by omega) fits]
  exact if_pos bounds

lemma separator_cons {c : Char} (visible : Text.isBlank c = false) (rest : List Char) :
    separator c (c :: rest) = .ok rest := by
  rw [separator, trimLeft_cons rest visible]
  exact if_pos rfl

/-- A year behind its sign ends where its digits do. -/
lemma digits_sign {n : Nat} (fits : n < 1000000) (rest : List Char) :
    digits ((padded 4 n).toList ++ '-' :: rest).length none ((padded 4 n).toList ++ '-' :: rest) =
      .ok (n, '-' :: rest) := by
  have value := ofDigitChars_padded 4 n
  rw [digits_append isDigit_of_mem_padded (by simp) (fun none => absurd none (padded_ne_nil 4 n))
    (Or.inr (by simp [Char.isDigit])), Option.getD_none, value]
  rw [Option.getD_none, value]
  exact Nat.lt_of_lt_of_le fits (by decide)

/-- What is read of a year that fits. -/
lemma year_in_range {y : Int} (low : -1000000 < y) (high : y < 1000000) (rest : List Char) :
    (if -Nat.pow 2 31 ≤ y ∧ y < Nat.pow 2 31 then (pure (y, rest) : Except Fault (Int × List Char))
      else .error .outOfRange) = .ok (y, rest) := by
  have power : (Nat.pow 2 31 : Int) = 2147483648 := rfl
  refine if_pos ?_
  rw [power]
  omega

-- The range of years is not to be evaluated when these are checked, so they go step by step.
lemma yearField_plain {y : Int} (low : 0 ≤ y) (high : y < 10000) (rest : List Char) :
    yearField ((padded 4 y.toNat).toList ++ rest) = .ok (y, rest) := by
  obtain ⟨c, r, h, digit⟩ := padded_eq_cons 4 y.toNat
  have same : (y.toNat : Int) = y := by omega
  rw [yearField, trimLeft_padded]
  split
  · next signed =>
    obtain rfl := (List.cons.inj (h ▸ signed : c :: r ++ rest = _)).1
    cases digit
  · next signed =>
    obtain rfl := (List.cons.inj (h ▸ signed : c :: r ++ rest = _)).1
    cases digit
  · rw [digits_padded (by omega) (by omega) (by omega), ok_bind]
    dsimp only
    rw [pure_bind]
    dsimp only
    rw [same]
    exact year_in_range (by omega) (by omega) rest

lemma yearField_minus {y : Int} (low : -1000000 < y) (high : y < 0) (rest : List Char) :
    yearField ('-' :: (padded 4 y.natAbs).toList ++ '-' :: rest) = .ok (y, '-' :: rest) := by
  have same : -(y.natAbs : Int) = y := by omega
  rw [List.cons_append, yearField, trimLeft_cons _ (by decide)]
  split
  · next signed =>
    obtain rfl := (List.cons.inj signed).2
    rw [digits_sign (by omega), ok_bind]
    dsimp only
    rw [pure_bind]
    dsimp only
    rw [same]
    exact year_in_range low (by omega) _
  · next signed => exact absurd (List.cons.inj signed).1 (by decide)
  · next minus _ => exact absurd rfl (minus _)

lemma yearField_plus {y : Int} (low : 0 ≤ y) (high : y < 1000000) (rest : List Char) :
    yearField ('+' :: (padded 4 y.natAbs).toList ++ '-' :: rest) = .ok (y, '-' :: rest) := by
  have same : (y.natAbs : Int) = y := by omega
  rw [List.cons_append, yearField, trimLeft_cons _ (by decide)]
  split
  · next signed => exact absurd (List.cons.inj signed).1 (by decide)
  · next signed =>
    obtain rfl := (List.cons.inj signed).2
    rw [digits_sign (by omega), ok_bind]
    dsimp only
    rw [pure_bind]
    dsimp only
    rw [same]
    exact year_in_range (by omega) high _
  · next _ plus => exact absurd rfl (plus _)

lemma yearField_yearText {y : Int} (low : -1000000 < y) (high : y < 1000000) (rest : List Char) :
    yearField ((yearText y).toList ++ '-' :: rest) = .ok (y, '-' :: rest) := by
  unfold yearText
  split_ifs with plain negative
  · exact yearField_plain plain.1 (by omega) _
  · rw [String.toList_append]
    exact yearField_minus low negative rest
  · rw [String.toList_append]
    exact yearField_plus (by omega) high rest

/-- A fraction of a second in as many digits as it is written with. -/
lemma fraction_padded {width m : Nat} (pos : 0 < width) (narrow : width ≤ 9)
    (small : m < 10 ^ width) :
    fraction (("." ++ padded width m).toList ++ ['Z']) =
      .ok (m * Nat.pow 10 (9 - width), ['Z']) := by
  have dot : ("." ++ padded width m).toList ++ ['Z'] =
      '.' :: ((padded width m).toList ++ ['Z']) := by simp
  have value := ofDigitChars_padded width m
  have length := length_padded pos small
  have count : ((padded width m).toList ++ ['Z']).length - ['Z'].length = width := by
    simp only [List.length_append, length]
    omega
  have stop : ∀ c ∈ ['Z'].head?, c.isDigit = false := by
    rintro c ⟨⟩
    rfl
  have number : digits 9 none ((padded width m).toList ++ ['Z']) = .ok (m, ['Z']) := by
    rw [digits_append isDigit_of_mem_padded (Nat.le_trans (Nat.le_of_eq length) narrow)
      (fun none => absurd none (padded_ne_nil width m)) (Or.inr stop), Option.getD_none, value]
    rw [Option.getD_none, value]
    have := Nat.pow_le_pow_right (n := 10) (by omega) narrow
    exact Nat.lt_of_lt_of_le small (Nat.le_trans this (by decide))
  rw [dot, fraction, number]
  simp only [bind, Except.bind, count]
  rfl

lemma fraction_fractionText {n : Nat} (fits : n < 1000000000) :
    fraction ((fractionText n).toList ++ ['Z']) = .ok (n, ['Z']) := by
  unfold fractionText
  split_ifs with none millis micros
  · rw [none]
    rfl
  · have whole : n / 1000000 * Nat.pow 10 (9 - 3) = n := by
      change n / 1000000 * 1000000 = n
      omega
    rw [fraction_padded (by omega) (by omega) (by omega), whole]
  · have whole : n / 1000 * Nat.pow 10 (9 - 6) = n := by
      change n / 1000 * 1000 = n
      omega
    rw [fraction_padded (by omega) (by omega) (by omega), whole]
  · have whole : n * Nat.pow 10 (9 - 9) = n := Nat.mul_one n
    rw [fraction_padded (by omega) (by omega) (by omega), whole]

/-! ## Bounds of the fields -/

/-- How many digits are read, and what they can amount to. -/
lemma digits_bound (width : Nat) (acc : Option Nat) (s : List Char) :
    Ensures (fun x => ∃ k ≤ width, s.length = x.2.length + k ∧ x.1 < (acc.getD 0 + 1) * 10 ^ k)
      (digits width acc s) := by
  induction s generalizing width acc with
  | nil =>
    rw [digits.eq_def]
    cases acc with
    | none => exact .error _
    | some n => exact .ok ⟨0, Nat.zero_le _, rfl, by simp⟩
  | cons c r ih =>
    cases width with
    | zero => exact .ok ⟨0, Nat.zero_le _, rfl, by simp⟩
    | succ w =>
      rw [digits.eq_def]
      dsimp only
      split_ifs with digit small
      · have range := range_of_isDigit digit
        rintro ⟨n, rest⟩ h
        obtain ⟨k, narrow, length, bound⟩ := ih w _ _ h
        refine ⟨k + 1, by omega, by simp only [List.length_cons, length]; omega,
          Nat.lt_of_lt_of_le bound ?_⟩
        rw [Nat.pow_succ', ← Nat.mul_assoc, Option.getD_some]
        exact Nat.mul_le_mul_right _ (by omega)
      · exact .error _
      · cases acc with
        | none => exact .error _
        | some n => exact .ok ⟨0, Nat.zero_le _, rfl, by simp⟩

lemma field_bounds (low high : Nat) (s : List Char) :
    Ensures (fun x => low ≤ x.1 ∧ x.1 ≤ high) (field low high s) := by
  refine (Ensures.anything _).bind fun ⟨n, r⟩ _ => ?_
  dsimp only
  split_ifs with bounds
  · exact .ok bounds
  · exact .error _

lemma fraction_lt (s : List Char) : Ensures (fun x => x.1 < 1000000000) (fraction s) := by
  unfold fraction
  split
  · next r =>
    refine (digits_bound 9 none r).bind fun ⟨n, rest⟩ ⟨k, narrow, length, bound⟩ => .ok ?_
    have count : r.length - rest.length = k := by
      dsimp only at length
      omega
    dsimp only [Option.getD_none] at bound ⊢
    rw [count]
    calc n * 10 ^ (9 - k)
        < 10 ^ k * 10 ^ (9 - k) :=
          Nat.mul_lt_mul_of_pos_right (by omega) (Nat.pow_pos (by decide))
      _ = 10 ^ (k + (9 - k)) := (Nat.pow_add _ _ _).symm
      _ = 10 ^ 9 := by rw [Nat.add_sub_cancel' narrow]
      _ = 1000000000 := rfl
  · exact .ok (Nat.zero_lt_succ _)

/-- Offsets from universal time are whole minutes. -/
lemma offset_minutes (s : List Char) : Ensures (fun x => x.1 % 60 = 0) (offset s) := by
  have whole (sign : Int) (hours minutes : Nat) (r : List Char) :
      (sign * ((hours * 3600 + minutes * 60 : Nat) : Int), r).1 % 60 = 0 := by
    have : ((hours * 3600 + minutes * 60 : Nat) : Int) = 60 * (hours * 60 + minutes : Nat) := by
      omega
    rw [this, Int.mul_left_comm]
    exact Int.mul_emod_right _ _
  unfold offset
  dsimp only [bind, Except.bind, pure, Except.pure]
  repeat' split
  all_goals first | exact .error _ | exact .ok (whole _ _ _ _)

lemma zone_minutes (s : List Char) : Ensures (fun x => x.1 % 60 = 0) (zone s) := by
  unfold zone
  split
  · exact .ok rfl
  · exact .ok rfl
  · split_ifs
    · exact .ok rfl
    · exact offset_minutes _
  · exact offset_minutes _

/-! ## Moments -/

/-- A moment of the calendar.  Only at the end of a minute there may be a leap second. -/
structure Valid (t : Timestamp) : Prop where
  dated : t.inCalendar = true
  second : t.nanos < 1000000000 ∨ t.nanos < 2000000000 ∧ t.seconds % 60 = 59

/-- A moment in characters, field by field. -/
def spelling (year : Int) (month day hour minute second nanos : Nat) : List Char :=
  (yearText year).toList ++ '-' :: ((padded 2 month).toList ++ '-' :: ((padded 2 day).toList ++
    'T' :: ((padded 2 hour).toList ++ ':' :: ((padded 2 minute).toList ++ ':' ::
      ((padded 2 second).toList ++ ((fractionText nanos).toList ++ ['Z']))))))

lemma toList_text (t : Timestamp) : t.text.toList =
    spelling (dateOfDays (Int.fdiv t.seconds 86400)).1
      (dateOfDays (Int.fdiv t.seconds 86400)).2.1.toNat
      (dateOfDays (Int.fdiv t.seconds 86400)).2.2.toNat
      ((Int.fmod t.seconds 86400).toNat / 3600) ((Int.fmod t.seconds 86400).toNat / 60 % 60)
      ((Int.fmod t.seconds 86400).toNat % 60 + t.nanos / 1000000000) (t.nanos % 1000000000) := by
  simp [text, spelling]

/-- The moment of a day, with an hour, a minute and a second of it; the second may be a leap
second. -/
def ofFields (days : Int) (hour minute second nanos : Nat) : Timestamp :=
  let clock := if second = 60 then (59, nanos + 1000000000) else (second, nanos)
  ⟨days * 86400 + hour * 3600 + minute * 60 + clock.1 - 0, clock.2⟩

/-- The fields of a moment are read one by one. -/
lemma read_spelling {year : Int} {month day hour minute second nanos : Nat}
    (years : -1000000 < year ∧ year < 1000000) (months : 1 ≤ month ∧ month ≤ 12)
    (days : 1 ≤ day ∧ day ≤ 31) (date : isDate year month day = true) (hours : hour ≤ 23)
    (minutes : minute ≤ 59) (seconds : second ≤ 60) (part : nanos < 1000000000)
    (dated : (ofFields (daysOfDate year month day) hour minute second nanos).inCalendar = true) :
    Timestamp.read (spelling year month day hour minute second nanos) =
      .ok (ofFields (daysOfDate year month day) hour minute second nanos) := by
  rw [spelling, Timestamp.read, yearField_yearText years.1 years.2, ok_bind]
  dsimp only
  rw [separator_cons (by decide), ok_bind, field_padded months (by omega), ok_bind]
  dsimp only
  rw [separator_cons (by decide), ok_bind, field_padded days (by omega), ok_bind]
  dsimp only
  rw [if_pos (by decide), ok_bind, field_padded ⟨Nat.zero_le _, hours⟩ (by omega), ok_bind]
  dsimp only
  rw [separator_cons (by decide), ok_bind, field_padded ⟨Nat.zero_le _, minutes⟩ (by omega),
    ok_bind]
  dsimp only
  rw [separator_cons (by decide), ok_bind, field_padded ⟨Nat.zero_le _, seconds⟩ (by omega),
    ok_bind]
  dsimp only
  rw [fraction_fractionText part, ok_bind]
  dsimp only
  rw [show zone (Text.trimLeft ['Z']) = .ok (0, []) from rfl, ok_bind]
  dsimp only
  rw [if_neg (by decide), if_neg (by decide), date, if_neg (by decide)]
  exact if_pos dated

/-- The fields of a moment make up the moment: the second is 60 exactly in a leap second. -/
lemma ofFields_eq {t : Timestamp}
    (second : t.nanos < 1000000000 ∨ t.nanos < 2000000000 ∧ t.seconds % 60 = 59) :
    ofFields (t.seconds / 86400) ((t.seconds % 86400).toNat / 3600)
      ((t.seconds % 86400).toNat / 60 % 60)
      ((t.seconds % 86400).toNat % 60 + t.nanos / 1000000000) (t.nanos % 1000000000) = t := by
  obtain ⟨seconds, nanos⟩ := t
  unfold ofFields
  rw [Timestamp.mk.injEq]
  dsimp only at *
  split_ifs <;> dsimp only <;> omega

/-- **The text of a moment is read as the moment.** -/
theorem read_text {t : Timestamp} (h : t.Valid) : Timestamp.read t.text.toList = .ok t := by
  obtain ⟨dated, second⟩ := h
  have days : Int.fdiv t.seconds 86400 = t.seconds / 86400 :=
    Int.fdiv_eq_ediv_of_nonneg _ (by omega)
  have rest : Int.fmod t.seconds 86400 = t.seconds % 86400 :=
    Int.fmod_eq_emod_of_nonneg _ (by omega)
  have back := daysOfDate_dateOfDays (t.seconds / 86400)
  have date := isDate_dateOfDays (t.seconds / 86400)
  obtain ⟨months, numbers⟩ := dateOfDays_bounds (t.seconds / 86400)
  have range := dated
  simp only [inCalendar, Bool.and_eq_true, decide_eq_true_eq] at range
  have years : -1000000 < (dateOfDays (t.seconds / 86400)).1 ∧
      (dateOfDays (t.seconds / 86400)).1 < 1000000 :=
    dateOfDays_year_bounds (by omega) (by omega)
  have fields := ofFields_eq second
  rw [toList_text, days, rest]
  generalize dateOfDays (t.seconds / 86400) = parts at *
  obtain ⟨y, m, d⟩ := parts
  dsimp only at *
  obtain ⟨month, rfl⟩ : ∃ n : Nat, m = n := ⟨m.toNat, by omega⟩
  obtain ⟨day, rfl⟩ : ∃ n : Nat, d = n := ⟨d.toNat, by omega⟩
  rw [Int.toNat_natCast, Int.toNat_natCast, read_spelling years (by omega) (by omega) date
    (by omega) (by omega) (by omega) (by omega) (by rwa [back, fields]), back, fields]

/-- **What is read as a moment is one.** -/
theorem ensures_read (text : List Char) : Ensures Valid (read text) := by
  rw [read]
  refine (Ensures.anything _).bind fun ⟨year, s⟩ _ => (Ensures.anything _).bind fun s _ => ?_
  refine (Ensures.anything _).bind fun ⟨month, s⟩ _ => (Ensures.anything _).bind fun s _ => ?_
  refine (Ensures.anything _).bind fun ⟨day, s⟩ _ => ?_
  dsimp only
  split
  · exact .error _
  · split
    · refine (Ensures.anything _).bind fun s _ => (Ensures.anything _).bind fun hour _ => ?_
      refine (Ensures.anything _).bind fun s _ => (Ensures.anything _).bind fun minute _ => ?_
      refine (Ensures.anything _).bind fun s _ => (field_bounds 0 60 _).bind fun second bounds => ?_
      refine (fraction_lt _).bind fun nanos small => (zone_minutes _).bind fun shift minutes => ?_
      have last := bounds.2
      split_ifs with trailing wide date leap dated dated
      · exact .error _
      · exact .error _
      · exact .error _
      · exact .ok ⟨dated, Or.inr (by dsimp only; omega)⟩
      · exact .error _
      · exact .ok ⟨dated, Or.inl small⟩
      · exact .error _
    · exact .error _

/-- The moments that come back from their texts. -/
theorem read_text_eq_ok_iff {t : Timestamp} : Timestamp.read t.text.toList = .ok t ↔ t.Valid :=
  ⟨fun h => ensures_read _ t h, read_text⟩

end ApiCanon.Timestamp
