/-!
# Binary floating point

Finite numbers `± m · 2^q` of a binary format, in exact arithmetic on natural numbers.  Nothing
here runs on the machine's floating-point unit, so every value can be computed inside a proof.

## Rounding

All operations are "compute the exact quotient, then round": to the nearest number of the
format, of two equally near ones to the one with the even significand.  A quotient beyond the
greatest number has no value (`none`).
-/

namespace ApiCanon.Binary

/-- A binary format: the number of bits of a significand, and the least and the greatest exponent
of the last of these bits. -/
structure Format where
  precision : Nat
  least : Int
  greatest : Int
  deriving DecidableEq, Repr

/-- Numbers of 64 bits. -/
def double : Format := ⟨53, -1074, 971⟩

/-- Numbers of 32 bits. -/
def single : Format := ⟨24, -149, 104⟩

/-- The number `± mantissa · 2^exponent`. Zero has a sign. -/
structure Finite where
  negative : Bool
  mantissa : Nat
  exponent : Int
  deriving DecidableEq, Repr, Inhabited

namespace Finite

/-- The magnitude as a quotient of natural numbers. -/
def ratio (x : Finite) : Nat × Nat :=
  if 0 ≤ x.exponent then (x.mantissa * Nat.pow 2 x.exponent.toNat, 1)
  else (x.mantissa, Nat.pow 2 (-x.exponent).toNat)

def isZero (x : Finite) : Bool := x.mantissa == 0

/-- Whether two numbers are equal as numbers: the sign of a zero does not count. -/
def sameValue (x y : Finite) : Bool :=
  (x.isZero && y.isZero) ||
  (x.negative == y.negative && x.ratio.1 * y.ratio.2 == y.ratio.1 * x.ratio.2)

end Finite

/-! ## Rounding -/

/-- `n / d` to the nearest whole number, a half to the even one. -/
def roundHalfEven (n d : Nat) : Nat :=
  let a := n / d
  let r := n % d
  if 2 * r > d ∨ (2 * r = d ∧ a % 2 = 1) then a + 1 else a

/-- `num / den / 2^q` as a quotient. -/
def scale2 (num den : Nat) (q : Int) : Nat × Nat :=
  if 0 ≤ q then (num, den * Nat.pow 2 q.toNat) else (num * Nat.pow 2 (-q).toNat, den)

/-- The number of a format nearest to `num / den`; none if that lies beyond the greatest. -/
def Format.round (f : Format) (negative : Bool) (num den : Nat) : Option Finite :=
  if num = 0 then some ⟨negative, 0, f.least⟩
  else
    let q₀ : Int := (num.log2 : Int) - (den.log2 : Int) - f.precision
    let (n₀, d₀) := scale2 num den q₀
    let q := max f.least (if n₀ / d₀ < Nat.pow 2 f.precision then q₀ else q₀ + 1)
    let (n, d) := scale2 num den q
    let m := roundHalfEven n d
    let (m, q) := if m = Nat.pow 2 f.precision then (Nat.pow 2 (f.precision - 1), q + 1) else (m, q)
    if q ≤ f.greatest then some ⟨negative, m, q⟩ else none

/-- The number nearest to a natural number. -/
def Format.ofNat? (f : Format) (n : Nat) : Option Finite := f.round false n 1

def Format.mul? (f : Format) (x y : Finite) : Option Finite :=
  let (a, b) := x.ratio
  let (c, d) := y.ratio
  f.round (x.negative != y.negative) (a * c) (b * d)

/-- The quotient; the divisor is not zero. -/
def Format.div? (f : Format) (x y : Finite) : Option Finite :=
  let (a, b) := x.ratio
  let (c, d) := y.ratio
  f.round (x.negative != y.negative) (a * d) (b * c)

/-- The same number in another format, rounded. -/
def Format.convert? (f : Format) (x : Finite) : Option Finite :=
  let (a, b) := x.ratio
  f.round x.negative a b

/-- The number of decimal digits of a natural number (one for zero). -/
def decimalLength (n : Nat) : Nat := (Nat.toDigits 10 n).length

/-- The number nearest to `± digits · 10^exponent`.  Exponents far outside of the range are
answered without computing the power. -/
def Format.ofDecimal? (f : Format) (negative : Bool) (digits : Nat) (exponent : Int) :
    Option Finite :=
  if digits = 0 then some ⟨negative, 0, f.least⟩
  else if exponent > 400 then none
  else if exponent + decimalLength digits < -400 then some ⟨negative, 0, f.least⟩
  else if 0 ≤ exponent then f.round negative (digits * Nat.pow 10 exponent.toNat) 1
  else f.round negative digits (Nat.pow 10 (-exponent).toNat)

end ApiCanon.Binary
