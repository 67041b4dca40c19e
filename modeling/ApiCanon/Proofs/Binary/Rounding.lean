import ApiCanon.Binary.Shortest
import ApiCanon.Proofs.Binary.Values
import Mathlib.Algebra.Order.Field.Power
import Mathlib.Algebra.Order.Floor.Semiring
import Mathlib.Data.Nat.Cast.Order.Field
import Mathlib.Data.Nat.Log
import Mathlib.Data.Rat.Floor
import Mathlib.Tactic.FieldSimp
import Mathlib.Tactic.Linarith
import Mathlib.Tactic.NormNum
import Mathlib.Tactic.Positivity
import Mathlib.Tactic.Ring

/-!
# Decimals that stand for a number

A decimal stands for a number of a binary format if it lies among the reals that round to the
number (`Format.Covers`).  No real rounds to two numbers of the format (`eq_of_covers`), so that a
decimal tells the number for which it stands; and the shortest decimal of a double stands for it
(`covers_shortest`).

That the search for the shortest decimal succeeds takes an estimate.  On the grid of `10^t` there is
a decimal for the number as soon as the grid is finer than a quarter of the unit in its last place;
from its leading decimal place down, which is found by a linear approximation to a logarithm, that
is within twenty steps.
-/

namespace ApiCanon.Binary

/-! ## Values -/

/-- The magnitude of a number. -/
def Finite.magnitude (x : Finite) : ℚ := x.mantissa * 2 ^ x.exponent

/-- The value of a decimal. -/
def Decimal.value (d : Decimal) : ℚ := d.digits * 10 ^ d.exponent

/-- A number is one of a format: its significand fits, and is as great as can be unless the exponent
is the least. -/
structure Format.Holds (f : Format) (x : Finite) : Prop where
  fits : x.mantissa < 2 ^ f.precision
  low : f.least ≤ x.exponent
  high : x.exponent ≤ f.greatest
  normal : f.least < x.exponent → 2 ^ (f.precision - 1) ≤ x.mantissa

instance (f : Format) (x : Finite) : Decidable (f.Holds x) :=
  decidable_of_iff (x.mantissa < 2 ^ f.precision ∧ f.least ≤ x.exponent ∧ x.exponent ≤ f.greatest ∧
      (f.least < x.exponent → 2 ^ (f.precision - 1) ≤ x.mantissa))
    ⟨fun ⟨a, b, c, d⟩ => ⟨a, b, c, d⟩, fun ⟨a, b, c, d⟩ => ⟨a, b, c, d⟩⟩

/-- A quotient in units of a power of a base. -/
def scale (base num den : Nat) (t : Int) : Nat × Nat :=
  if 0 ≤ t then (num, den * Nat.pow base t.toNat) else (num * Nat.pow base (-t).toNat, den)

lemma scale_den_pos {base : Nat} (hb : 0 < base) (num : Nat) {den : Nat} (hd : 0 < den) (t : Int) :
    0 < (scale base num den t).2 := by
  unfold scale
  split_ifs
  · exact Nat.mul_pos hd (Nat.pow_pos hb)
  · exact hd

lemma scale_value {base : Nat} (hb : 0 < base) (num den : Nat) (t : Int) :
    ((scale base num den t).1 : ℚ) / (scale base num den t).2 =
      (num : ℚ) / den / (base : ℚ) ^ t := by
  have nonzero : (base : ℚ) ≠ 0 := by positivity
  unfold scale
  split_ifs with sign
  · have power : (base : ℚ) ^ t = (base : ℚ) ^ t.toNat := by
      rw [← zpow_natCast, Int.toNat_of_nonneg sign]
    simp only [Nat.pow_eq, Nat.cast_mul, Nat.cast_pow, power, div_div]
  · have power : (base : ℚ) ^ t = ((base : ℚ) ^ (-t).toNat)⁻¹ := by
      rw [← zpow_natCast, ← zpow_neg, Int.toNat_of_nonneg (by omega), neg_neg]
    simp only [Nat.pow_eq, Nat.cast_mul, Nat.cast_pow, power, div_inv_eq_mul]
    ring

lemma scale10_eq (num den : Nat) (t : Int) : scale10 num den t = scale 10 num den t := rfl

lemma Finite.ratio_eq (x : Finite) : x.ratio = scale 2 x.mantissa 1 (-x.exponent) := by
  unfold ratio scale
  by_cases zero : x.exponent = 0
  · simp [zero]
  · by_cases sign : 0 ≤ x.exponent
    · rw [if_pos sign, if_neg (by omega), neg_neg]
    · rw [if_neg sign, if_pos (by omega), Nat.one_mul]

lemma Finite.ratio_value (x : Finite) : (x.ratio.1 : ℚ) / x.ratio.2 = x.magnitude := by
  rw [ratio_eq, scale_value Nat.two_pos, magnitude, zpow_neg]
  simp

/-! ## What rounds to a number -/

/-- The distance of a number from the next one, divided by four. -/
def Finite.quarter (x : Finite) : ℚ := 2 ^ (x.exponent - 2)

lemma Finite.quarter_pos (x : Finite) : 0 < x.quarter := by
  unfold quarter
  positivity

lemma Finite.magnitude_eq (x : Finite) : x.magnitude = 4 * x.mantissa * x.quarter := by
  have four : (2 : ℚ) ^ x.exponent = 4 * x.quarter := by
    rw [quarter, zpow_sub₀ (by norm_num)]
    ring
  rw [magnitude, four]
  ring

/-- The reals that round to a number; the ends of the interval do if the significand is even. -/
def Format.Covers (f : Format) (x : Finite) (v : ℚ) : Prop :=
  if x.mantissa % 2 = 0 then
    (f.interval x).1 * x.quarter ≤ v ∧ v ≤ (f.interval x).2 * x.quarter
  else (f.interval x).1 * x.quarter < v ∧ v < (f.interval x).2 * x.quarter

variable {f : Format} {x y : Finite} {v : ℚ}

/-- A decimal as a quotient is a quotient in units of a power of ten. -/
lemma decimal_eq_scale (digits : Nat) (t : Int) :
    (if 0 ≤ t then (digits * Nat.pow 10 t.toNat, 1) else (digits, Nat.pow 10 (-t).toNat)) =
      scale 10 digits 1 (-t) := by
  unfold scale
  by_cases zero : t = 0
  · simp [zero]
  · by_cases sign : 0 ≤ t
    · rw [if_pos sign, if_neg (by omega), neg_neg]
    · rw [if_neg sign, if_pos (by omega), Nat.one_mul]

lemma roundsTo_eq (digits : Nat) (t : Int) :
    f.roundsTo x digits t =
      let p := scale 10 digits 1 (-t)
      let q := scale 2 p.1 p.2 (x.exponent - 2)
      if x.mantissa % 2 = 0 then (f.interval x).1 * q.2 ≤ q.1 && q.1 ≤ (f.interval x).2 * q.2
      else (f.interval x).1 * q.2 < q.1 && q.1 < (f.interval x).2 * q.2 := by
  unfold Format.roundsTo
  rw [decimal_eq_scale]
  rfl

/-- The test by natural numbers decides which decimals stand for a number. -/
lemma roundsTo_iff (digits : Nat) (t : Int) :
    f.roundsTo x digits t = true ↔ f.Covers x (digits * 10 ^ t) := by
  have value : ((scale 10 digits 1 (-t)).1 : ℚ) / (scale 10 digits 1 (-t)).2 = digits * 10 ^ t := by
    rw [scale_value (by norm_num), zpow_neg]
    simp
  have pos : 0 < (scale 10 digits 1 (-t)).2 := scale_den_pos (by norm_num) _ Nat.one_pos _
  rw [roundsTo_eq]
  dsimp only
  generalize scale 10 digits 1 (-t) = p at value pos ⊢
  have ratio := scale_value Nat.two_pos p.1 p.2 (x.exponent - 2)
  have den := scale_den_pos Nat.two_pos p.1 pos (x.exponent - 2)
  generalize scale 2 p.1 p.2 (x.exponent - 2) = q at ratio den ⊢
  have unit := x.quarter_pos
  have den' : (0 : ℚ) < q.2 := by exact_mod_cast den
  have same : (digits * 10 ^ t : ℚ) = q.1 / q.2 * x.quarter := by
    rw [ratio, value, Finite.quarter]
    push_cast
    field_simp
  unfold Format.Covers
  split_ifs
  · simp only [Bool.and_eq_true, decide_eq_true_eq, same, mul_le_mul_iff_left₀ unit,
      le_div_iff₀ den', div_le_iff₀ den']
    norm_cast
  · simp only [Bool.and_eq_true, decide_eq_true_eq, same, mul_lt_mul_iff_left₀ unit,
      lt_div_iff₀ den', div_lt_iff₀ den']
    norm_cast

/-! ## One number for a decimal -/

lemma Format.Covers.le (h : f.Covers x v) :
    (f.interval x).1 * x.quarter ≤ v ∧ v ≤ (f.interval x).2 * x.quarter := by
  unfold Covers at h
  split_ifs at h
  · exact h
  · exact ⟨h.1.le, h.2.le⟩

lemma Format.Covers.lt (h : f.Covers x v) (odd : x.mantissa % 2 = 1) :
    (f.interval x).1 * x.quarter < v ∧ v < (f.interval x).2 * x.quarter := by
  unfold Covers at h
  rw [if_neg (by omega)] at h
  exact h

lemma upper_eq (f : Format) (x : Finite) : (f.interval x).2 = 4 * x.mantissa + 2 := rfl

/-- What rounds to a number of the least exponents lies below what rounds to one with a greater
exponent. -/
lemma not_covers_of_exponent_lt (wide : 0 < f.precision) (hx : f.Holds x) (hy : f.Holds y)
    (less : x.exponent < y.exponent) (cx : f.Covers x v) (cy : f.Covers y v) : False := by
  obtain ⟨P, hP⟩ : ∃ P, P = 2 ^ (f.precision - 1) := ⟨_, rfl⟩
  have double : 2 ^ f.precision = 2 * P := by
    rw [hP, ← Nat.pow_succ', Nat.succ_eq_add_one, Nat.sub_add_cancel wide]
  have fits : x.mantissa < 2 * P := double ▸ hx.fits
  have least : f.least < y.exponent := lt_of_le_of_lt hx.low less
  have normal : P ≤ y.mantissa := hP ▸ hy.normal least
  have pos : 0 < P := hP ▸ Nat.two_pow_pos _
  have unit := x.quarter_pos
  have units : 2 * x.quarter ≤ y.quarter := by
    have step : (2 : ℚ) * 2 ^ (x.exponent - 2) = 2 ^ (x.exponent - 2 + 1) := by
      rw [zpow_add_one₀ (by norm_num), mul_comm]
    rw [Finite.quarter, Finite.quarter, step]
    exact zpow_le_zpow_right₀ (by norm_num) (by omega)
  -- the two intervals meet at most in one point, the lower end of the upper one
  have lower : ((8 * P - 2 : ℚ)) * x.quarter ≤ v := by
    have bound : 4 * P - 1 ≤ (f.interval y).1 := by
      simp only [Format.interval, Nat.pow_eq, ← hP, least, and_true]
      split_ifs <;> omega
    have bound' : (4 * P - 1 : ℚ) ≤ (f.interval y).1 := by
      have cast : ((4 * P - 1 : Nat) : ℚ) = 4 * P - 1 := by
        rw [Nat.cast_sub (by omega)]
        push_cast
        ring
      rw [← cast]
      exact_mod_cast bound
    calc (8 * P - 2 : ℚ) * x.quarter = (4 * P - 1) * (2 * x.quarter) := by ring
      _ ≤ (f.interval y).1 * y.quarter := by
        have nonneg : (0 : ℚ) ≤ (f.interval y).1 := Nat.cast_nonneg _
        exact mul_le_mul bound' units (by linarith) nonneg
      _ ≤ v := cy.le.1
  have upper : v < (8 * P - 2 : ℚ) * x.quarter := by
    by_cases odd : x.mantissa % 2 = 1
    · have bound : ((f.interval x).2 : ℚ) ≤ 8 * P - 2 := by
        have : (x.mantissa : ℚ) + 1 ≤ 2 * P := by exact_mod_cast fits
        rw [upper_eq]
        push_cast
        linarith
      exact lt_of_lt_of_le (cx.lt odd).2 (mul_le_mul_of_nonneg_right bound unit.le)
    · have bound : ((f.interval x).2 : ℚ) < 8 * P - 2 := by
        have : x.mantissa + 2 ≤ 2 * P := by omega
        have : (x.mantissa : ℚ) + 2 ≤ 2 * P := by exact_mod_cast this
        rw [upper_eq]
        push_cast
        linarith
      exact lt_of_le_of_lt cx.le.2 (mul_lt_mul_of_pos_right bound unit)
  exact absurd lower (not_le.2 upper)

/-- What rounds to a number lies below what rounds to a greater one with the same exponent. -/
lemma not_covers_of_mantissa_lt (hx : f.Holds x) (same : x.exponent = y.exponent)
    (less : x.mantissa < y.mantissa) (cx : f.Covers x v) (cy : f.Covers y v) : False := by
  have unit := x.quarter_pos
  have units : y.quarter = x.quarter := by rw [Finite.quarter, Finite.quarter, same]
  -- a number in front of which the gap is narrow is the least of its exponent
  have wide : (f.interval y).1 = 4 * y.mantissa - 2 := by
    simp only [Format.interval]
    refine if_neg fun narrow => ?_
    have := hx.normal (same ▸ narrow.2)
    have : y.mantissa = 2 ^ (f.precision - 1) := narrow.1
    omega
  have lower : ((f.interval y).1 : ℚ) * y.quarter = (4 * y.mantissa - 2) * x.quarter := by
    rw [wide, units, Nat.cast_sub (by omega)]
    push_cast
    ring
  have upper : ((f.interval x).2 : ℚ) * x.quarter = (4 * x.mantissa + 2) * x.quarter := by
    rw [upper_eq]
    push_cast
    ring
  have low := lower ▸ cy.le.1
  have high := upper ▸ cx.le.2
  by_cases next : x.mantissa + 1 = y.mantissa
  · -- one of the two is odd, and the point where the intervals meet does not round to that one
    have ends : (4 * x.mantissa + 2 : ℚ) = 4 * y.mantissa - 2 := by
      rw [← next]
      push_cast
      ring
    rw [ends] at high
    by_cases odd : x.mantissa % 2 = 1
    · have := (cx.lt odd).2
      rw [upper, ends] at this
      exact absurd low (not_le.2 this)
    · have := (cy.lt (by omega)).1
      rw [lower] at this
      exact absurd high (not_le.2 this)
  · have apart : x.mantissa + 2 ≤ y.mantissa := by omega
    have apart' : (x.mantissa : ℚ) + 2 ≤ y.mantissa := by exact_mod_cast apart
    have : (4 * x.mantissa + 2 : ℚ) * x.quarter < (4 * y.mantissa - 2) * x.quarter :=
      mul_lt_mul_of_pos_right (by linarith) unit
    linarith

/-- **No real rounds to two numbers of a format.** -/
theorem eq_of_covers (wide : 0 < f.precision) (hx : f.Holds x) (hy : f.Holds y)
    (sign : x.negative = y.negative) (cx : f.Covers x v) (cy : f.Covers y v) : x = y := by
  have exponents : x.exponent = y.exponent := by
    rcases lt_trichotomy x.exponent y.exponent with less | same | less
    · exact (not_covers_of_exponent_lt wide hx hy less cx cy).elim
    · exact same
    · exact (not_covers_of_exponent_lt wide hy hx less cy cx).elim
  have mantissas : x.mantissa = y.mantissa := by
    rcases lt_trichotomy x.mantissa y.mantissa with less | same | less
    · exact (not_covers_of_mantissa_lt hx exponents less cx cy).elim
    · exact same
    · exact (not_covers_of_mantissa_lt hy exponents.symm less cy cx).elim
  cases x
  cases y
  simp_all

/-! ## A decimal for every number -/

lemma onGrid?_eq_some {t : Int} {a : Nat} (h : f.onGrid? x t = some a) :
    f.roundsTo x a t = true := by
  have rounded : ∀ n d : Nat, roundHalfEven n d = n / d ∨ roundHalfEven n d = n / d + 1 := by
    intro n d
    unfold roundHalfEven
    dsimp only
    split_ifs
    · exact Or.inr rfl
    · exact Or.inl rfl
  unfold Format.onGrid? at h
  dsimp only at h
  split at h
  · next below above =>
    rw [← Option.some.inj h]
    rcases rounded (scale10 x.ratio.1 x.ratio.2 t).1 (scale10 x.ratio.1 x.ratio.2 t).2 with e | e
    · rw [e]
      exact below
    · rw [e]
      exact above
  · next below _ =>
    rw [← Option.some.inj h]
    exact below
  · next _ above =>
    rw [← Option.some.inj h]
    exact above
  · cases h

/-- The decimals of a grid on both sides of a number. -/
lemma grid_bounds (x : Finite) (t : Int) :
    let n := scale10 x.ratio.1 x.ratio.2 t
    ((n.1 / n.2 : Nat) : ℚ) * 10 ^ t ≤ x.magnitude ∧
      x.magnitude < (((n.1 / n.2 : Nat) : ℚ) + 1) * 10 ^ t := by
  have den := x.ratio_den_pos
  have pos : 0 < (scale 10 x.ratio.1 x.ratio.2 t).2 := scale_den_pos (by norm_num) _ den t
  have ratio := scale_value (show 0 < 10 by norm_num) x.ratio.1 x.ratio.2 t
  have unit : (0 : ℚ) < 10 ^ t := by positivity
  rw [x.ratio_value, Nat.cast_ofNat] at ratio
  rw [scale10_eq]
  dsimp only
  generalize scale 10 x.ratio.1 x.ratio.2 t = n at pos ratio ⊢
  have pos' : (0 : ℚ) < n.2 := by exact_mod_cast pos
  have magnitude : x.magnitude = (n.1 : ℚ) / n.2 * 10 ^ t := by
    rw [ratio]
    field_simp
  have low : ((n.1 / n.2 : Nat) : ℚ) ≤ (n.1 : ℚ) / n.2 := Nat.cast_div_le
  have high : (n.1 : ℚ) / n.2 < ((n.1 / n.2 : Nat) : ℚ) + 1 := by
    rw [div_lt_iff₀ pos']
    exact_mod_cast Nat.lt_mul_of_div_lt (Nat.lt_succ_self (n.1 / n.2)) pos
  rw [magnitude]
  exact ⟨mul_le_mul_of_nonneg_right low unit.le, mul_lt_mul_of_pos_right high unit⟩

/-- On a grid that is fine enough there is a decimal for a number. -/
lemma exists_onGrid? (positive : 0 < x.mantissa) {t : Int} (fine : (10 : ℚ) ^ t ≤ x.quarter) :
    ∃ a, f.onGrid? x t = some a := by
  obtain ⟨low, high⟩ := grid_bounds x t
  have unit := x.quarter_pos
  have below : f.roundsTo x
      ((scale10 x.ratio.1 x.ratio.2 t).1 / (scale10 x.ratio.1 x.ratio.2 t).2) t = true := by
    rw [roundsTo_iff]
    generalize ((scale10 x.ratio.1 x.ratio.2 t).1 / (scale10 x.ratio.1 x.ratio.2 t).2) = a
      at low high ⊢
    rw [x.magnitude_eq] at low high
    have lower : ((f.interval x).1 : ℚ) ≤ 4 * x.mantissa - 1 := by
      have bound : (f.interval x).1 + 1 ≤ 4 * x.mantissa := by
        simp only [Format.interval]
        split_ifs <;> omega
      have bound' : ((f.interval x).1 : ℚ) + 1 ≤ 4 * x.mantissa := by exact_mod_cast bound
      linarith
    have first : ((f.interval x).1 : ℚ) * x.quarter < a * 10 ^ t := by
      have := mul_le_mul_of_nonneg_right lower unit.le
      linarith
    have last : (a * 10 ^ t : ℚ) < (f.interval x).2 * x.quarter := by
      rw [upper_eq]
      push_cast
      linarith
    unfold Format.Covers
    split_ifs
    · exact ⟨first.le, last.le⟩
    · exact ⟨first, last⟩
  unfold Format.onGrid?
  dsimp only
  rw [below]
  cases f.roundsTo x
      ((scale10 x.ratio.1 x.ratio.2 t).1 / (scale10 x.ratio.1 x.ratio.2 t).2 + 1) t with
  | true => exact ⟨_, rfl⟩
  | false => exact ⟨_, rfl⟩

/-- The search finds a decimal for a number if one of its grids is fine enough. -/
lemma covers_searchGrid (positive : 0 < x.mantissa) {fuel : Nat} {t : Int}
    (fine : ∃ i < fuel, (10 : ℚ) ^ (t - i) ≤ x.quarter) :
    f.Covers x (f.searchGrid x t fuel).value := by
  induction fuel generalizing t with
  | zero =>
    obtain ⟨i, less, -⟩ := fine
    exact absurd less (Nat.not_lt_zero i)
  | succ fuel ih =>
    rw [Format.searchGrid]
    cases found : f.onGrid? x t with
    | some a => exact (roundsTo_iff a t).1 (onGrid?_eq_some found)
    | none =>
      obtain ⟨i, less, bound⟩ := fine
      cases i with
      | zero =>
        rw [Nat.cast_zero, sub_zero] at bound
        obtain ⟨a, some⟩ := exists_onGrid? (f := f) positive bound
        rw [found] at some
        cases some
      | succ i =>
        refine ih ⟨i, by omega, ?_⟩
        have same : t - 1 - i = t - (i + 1 : Nat) := by
          push_cast
          ring
        rw [same]
        exact bound

/-! ## The leading place -/

lemma reaches_iff {num den : Nat} (hd : 0 < den) (t : Int) :
    reaches num den t = true ↔ (10 : ℚ) ^ t ≤ (num : ℚ) / den := by
  have ratio := scale_value (show 0 < 10 by norm_num) num den t
  have pos : 0 < (scale 10 num den t).2 := scale_den_pos (by norm_num) num hd t
  have pos' : (0 : ℚ) < (scale 10 num den t).2 := by exact_mod_cast pos
  have unit : (0 : ℚ) < 10 ^ t := by positivity
  rw [Nat.cast_ofNat] at ratio
  have one : (10 : ℚ) ^ t ≤ (num : ℚ) / den ↔ 1 ≤ (num : ℚ) / den / 10 ^ t := by
    rw [le_div_iff₀ unit, one_mul]
  rw [one, ← ratio, le_div_iff₀ pos', one_mul]
  unfold reaches
  rw [scale10_eq]
  simp

/-- Powers of two bases compare as their exponents do, by a ratio of the logarithms. -/
lemma pow_le_pow_of_ratio {a b p q k l : Nat} (ratio : a ^ p ≤ b ^ q) (hp : p ≠ 0) (hb : 0 < b)
    (exponents : q * k ≤ p * l) : a ^ k ≤ b ^ l := by
  have powers : (a ^ k) ^ p ≤ (b ^ l) ^ p := by
    calc (a ^ k) ^ p = (a ^ p) ^ k := by rw [← Nat.pow_mul, ← Nat.pow_mul, Nat.mul_comm]
      _ ≤ (b ^ q) ^ k := Nat.pow_le_pow_left ratio k
      _ = b ^ (q * k) := by rw [Nat.pow_mul]
      _ ≤ b ^ (p * l) := Nat.pow_le_pow_right hb exponents
      _ = (b ^ l) ^ p := by rw [← Nat.pow_mul, Nat.mul_comm]
  exact (Nat.pow_le_pow_iff_left hp).1 powers

/-- A power of ten below a power of two, where the exponents are compared by an approximation to
the logarithm and one place is left to it. -/
lemma ten_zpow_le_two_zpow (place bits : Int) (small : bits.natAbs ≤ 10000)
    (estimate : (place + 1) * 100000 ≤ bits * 30103) : (10 : ℚ) ^ place ≤ 2 ^ bits := by
  have nonneg : 0 ≤ bits ∨ bits < 0 := by omega
  rcases nonneg with sign | sign
  · obtain ⟨l, rfl⟩ := Int.eq_ofNat_of_zero_le sign
    by_cases down : place ≤ 0
    · calc (10 : ℚ) ^ place ≤ 10 ^ (0 : Int) := zpow_le_zpow_right₀ (by norm_num) down
        _ = 2 ^ (0 : Int) := by norm_num
        _ ≤ 2 ^ (l : Int) := zpow_le_zpow_right₀ (by norm_num) sign
    · obtain ⟨k, rfl⟩ := Int.eq_ofNat_of_zero_le (show 0 ≤ place by omega)
      have bound : 10 ^ k ≤ 2 ^ l :=
        pow_le_pow_of_ratio (p := 59) (q := 196) (by norm_num) (by norm_num) Nat.two_pos (by omega)
      rw [zpow_natCast, zpow_natCast]
      exact_mod_cast bound
  · obtain ⟨l, rfl⟩ : ∃ l : Nat, bits = -l := ⟨bits.natAbs, by omega⟩
    obtain ⟨k, rfl⟩ : ∃ k : Nat, place = -k := ⟨place.natAbs, by omega⟩
    have bound : 2 ^ l ≤ 10 ^ k :=
      pow_le_pow_of_ratio (p := 93) (q := 28) (by norm_num) (by norm_num) (by norm_num) (by omega)
    rw [zpow_neg, zpow_neg, zpow_natCast, zpow_natCast]
    refine inv_anti₀ (by positivity) ?_
    exact_mod_cast bound

/-- A positive quotient is at least the power of ten of its leading place. -/
lemma leadingPlace_le {num den : Nat} (hn : 0 < num) (hd : 0 < den)
    (small : ((num.log2 : Int) - den.log2 - 1).natAbs ≤ 10000) :
    (10 : ℚ) ^ leadingPlace num den ≤ (num : ℚ) / den := by
  have hd' : (0 : ℚ) < den := by exact_mod_cast hd
  unfold leadingPlace
  dsimp only
  split_ifs with two one zero
  · exact (reaches_iff hd _).1 two
  · exact (reaches_iff hd _).1 one
  · exact (reaches_iff hd _).1 zero
  · obtain ⟨bits, hbits⟩ : ∃ bits : Int, bits = num.log2 - den.log2 - 1 := ⟨_, rfl⟩
    have binary : (2 : ℚ) ^ bits ≤ (num : ℚ) / den := by
      have low : (2 : ℚ) ^ num.log2 ≤ num := by exact_mod_cast Nat.log2_self_le (by omega)
      have high : (den : ℚ) ≤ 2 ^ (den.log2 + 1) := by exact_mod_cast Nat.lt_log2_self.le
      have split : (2 : ℚ) ^ bits * 2 ^ (den.log2 + 1) = 2 ^ num.log2 := by
        rw [← zpow_natCast, ← zpow_natCast, ← zpow_add₀ (by norm_num), hbits]
        congr 1
        push_cast
        ring
      rw [le_div_iff₀ hd']
      calc (2 : ℚ) ^ bits * den ≤ 2 ^ bits * 2 ^ (den.log2 + 1) :=
            mul_le_mul_of_nonneg_left high (by positivity)
        _ = 2 ^ num.log2 := split
        _ ≤ num := low
    refine le_trans (ten_zpow_le_two_zpow _ bits (by omega) ?_) binary
    rw [hbits, Int.fdiv_eq_ediv_of_nonneg _ (by norm_num)]
    omega

/-! ## The shortest decimal -/

lemma eq_zero_of_digitChar : ∀ d < 10, (Nat.digitChar d == '0') = true → d = 0 := by
  decide

/-- The zeros at the end of the digits of a number can be divided out. -/
lemma ten_pow_zeros_dvd (n : Nat) :
    10 ^ ((Nat.toDigits 10 n).reverse.takeWhile (· == '0')).length ∣ n := by
  induction n using Nat.strongRecOn with
  | ind n ih =>
    by_cases small : n < 10
    · rw [Nat.toDigits_of_lt_base small]
      clear ih
      revert n
      decide
    · rw [Nat.toDigits_of_base_le (by norm_num) (by omega), List.reverse_append,
        List.reverse_singleton, List.singleton_append, List.takeWhile_cons]
      split_ifs with zero
      · have last := eq_zero_of_digitChar (n % 10) (Nat.mod_lt n (by norm_num)) zero
        have split : n / 10 * 10 = n := by omega
        have step := Nat.mul_dvd_mul_right (ih (n / 10) (by omega)) 10
        rw [split] at step
        rw [List.length_cons, Nat.pow_succ]
        exact step
      · exact one_dvd n

/-- Zeros moved into the exponent do not change a decimal. -/
lemma Decimal.strip_value (d : Decimal) : d.strip.value = d.value := by
  unfold strip
  dsimp only
  split_ifs
  · rfl
  · obtain ⟨k, hk⟩ := ten_pow_zeros_dvd d.digits
    generalize ((Nat.toDigits 10 d.digits).reverse.takeWhile (· == '0')).length = zeros at hk ⊢
    have quotient : d.digits / Nat.pow 10 zeros = k := by
      rw [hk]
      exact Nat.mul_div_cancel_left k (by positivity)
    simp only [value, quotient]
    rw [zpow_add₀ (by norm_num), zpow_natCast, hk]
    push_cast
    ring

/-- A double of positive magnitude is below `2^55` quarters of its unit. -/
lemma magnitude_lt (hx : double.Holds x) : x.magnitude < 2 ^ 55 * x.quarter := by
  have fits : (x.mantissa : ℚ) < 2 ^ 53 := by exact_mod_cast hx.fits
  have unit := x.quarter_pos
  rw [x.magnitude_eq]
  exact mul_lt_mul_of_pos_right (by linarith) unit

/-- The logarithms of a double are within the range of the estimate. -/
lemma log2_ratio (hx : double.Holds x) :
    ((x.ratio.1.log2 : Int) - x.ratio.2.log2 - 1).natAbs ≤ 10000 := by
  have fits : x.mantissa < 2 ^ 53 := hx.fits
  have low : -1074 ≤ x.exponent := hx.low
  have high : x.exponent ≤ 971 := hx.high
  have log2_le : ∀ {n k : Nat}, n ≤ 2 ^ k → n.log2 ≤ k := by
    intro n k h
    rw [Nat.log2_eq_log_two]
    calc Nat.log 2 n ≤ Nat.log 2 (2 ^ k) := Nat.log_mono_right h
      _ = k := Nat.log_pow Nat.one_lt_two k
  have num : x.ratio.1.log2 ≤ 53 + x.exponent.toNat := by
    refine log2_le ?_
    simp only [Finite.ratio, Nat.pow_eq]
    split_ifs
    · rw [Nat.pow_add]
      exact Nat.mul_le_mul_right _ fits.le
    · exact le_trans fits.le (Nat.pow_le_pow_right Nat.two_pos (Nat.le_add_right 53 _))
  have den : x.ratio.2.log2 ≤ (-x.exponent).toNat := by
    refine log2_le ?_
    simp only [Finite.ratio, Nat.pow_eq]
    split_ifs
    · exact Nat.one_le_two_pow
    · exact le_refl _
  omega

/-- **The shortest decimal of a double stands for it.** -/
theorem covers_shortest (hx : double.Holds x) (positive : 0 < x.mantissa) :
    double.Covers x (double.shortest x).value := by
  have den := x.ratio_den_pos
  have num : 0 < x.ratio.1 := by
    refine Nat.pos_of_ne_zero fun zero => ?_
    have := x.ratio_num_eq_zero_iff.1 zero
    simp only [Finite.isZero, beq_iff_eq] at this
    omega
  unfold Format.shortest
  rw [if_neg (by omega), Decimal.strip_value]
  refine covers_searchGrid positive ⟨19, by norm_num, ?_⟩
  have leading := leadingPlace_le num den (log2_ratio hx)
  rw [x.ratio_value] at leading
  have unit := x.quarter_pos
  rw [zpow_sub₀ (by norm_num), div_le_iff₀ (by positivity)]
  calc (10 : ℚ) ^ leadingPlace x.ratio.1 x.ratio.2 ≤ x.magnitude := leading
    _ ≤ 2 ^ 55 * x.quarter := (magnitude_lt hx).le
    _ ≤ x.quarter * 10 ^ ((19 : Nat) : Int) := by
      rw [mul_comm]
      exact mul_le_mul_of_nonneg_left (by norm_num) unit.le

end ApiCanon.Binary
