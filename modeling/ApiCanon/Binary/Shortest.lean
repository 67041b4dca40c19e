import ApiCanon.Binary.Basic

/-!
# Shortest decimal text

The decimal that stands for a number is the one with the fewest digits among those that round
to it, and the nearest of these.  The reals that round to `m · 2^q` form an interval, whose ends
belong to it when `m` is even.  On the grid of decimals with `k` digits only the two neighbours
of the number can be the nearest, so the search looks at two candidates for `k = 1, 2, …`.
-/

namespace ApiCanon.Binary

/-- The number `digits · 10^exponent`. -/
structure Decimal where
  digits : Nat
  exponent : Int
  deriving DecidableEq, Repr

/-- `num / den / 10^t` as a quotient. -/
def scale10 (num den : Nat) (t : Int) : Nat × Nat :=
  if 0 ≤ t then (num, den * Nat.pow 10 t.toNat) else (num * Nat.pow 10 (-t).toNat, den)

/-- Whether `10^t ≤ num / den`. -/
def reaches (num den : Nat) (t : Int) : Bool :=
  let (n, d) := scale10 num den t
  d ≤ n

/-- The place of the leading decimal digit of a positive quotient. -/
def leadingPlace (num den : Nat) : Int :=
  let guess := Int.fdiv (((num.log2 : Int) - (den.log2 : Int) - 1) * 30103) 100000
  if reaches num den (guess + 2) then guess + 2
  else if reaches num den (guess + 1) then guess + 1
  else if reaches num den guess then guess
  else guess - 1

/-- The interval of the reals that round to a positive number, in units of `2^(q-2)`: its two
ends, around `4 · m`.  Below a power of two the gap is half as wide. -/
def Format.interval (f : Format) (x : Finite) : Nat × Nat :=
  let narrow := x.mantissa = Nat.pow 2 (f.precision - 1) ∧ f.least < x.exponent
  (if narrow then 4 * x.mantissa - 1 else 4 * x.mantissa - 2, 4 * x.mantissa + 2)

/-- Whether `digits · 10^t` rounds to the number. -/
def Format.roundsTo (f : Format) (x : Finite) (digits : Nat) (t : Int) : Bool :=
  let (low, high) := f.interval x
  let (n, d) := if 0 ≤ t then (digits * Nat.pow 10 t.toNat, 1) else (digits, Nat.pow 10 (-t).toNat)
  let (n, d) := scale2 n d (x.exponent - 2)
  if x.mantissa % 2 = 0 then low * d ≤ n && n ≤ high * d else low * d < n && n < high * d

/-- The better of the two neighbours on the grid of `10^t`, if one of them rounds to the number. -/
def Format.onGrid? (f : Format) (x : Finite) (t : Int) : Option Nat :=
  let (num, den) := x.ratio
  let (n, d) := scale10 num den t
  let a := n / d
  match f.roundsTo x a t, f.roundsTo x (a + 1) t with
  | true, true => some (roundHalfEven n d)
  | true, false => some a
  | false, true => some (a + 1)
  | false, false => none

/-- Looks through ever finer grids, `fuel` of them at most. -/
def Format.searchGrid (f : Format) (x : Finite) (t : Int) : Nat → Decimal
  | 0 => ⟨0, 0⟩
  | fuel + 1 =>
    match f.onGrid? x t with
    | some a => ⟨a, t⟩
    | none => f.searchGrid x (t - 1) fuel

/-- Moves the zeros at the end of the digits into the exponent. -/
def Decimal.strip (d : Decimal) : Decimal :=
  let zeros := ((Nat.toDigits 10 d.digits).reverse.takeWhile (· == '0')).length
  if d.digits = 0 then d else ⟨d.digits / Nat.pow 10 zeros, d.exponent + zeros⟩

/-- The shortest decimal of the magnitude of a number.  Twenty digits are enough for the formats
in use. -/
def Format.shortest (f : Format) (x : Finite) : Decimal :=
  if x.mantissa = 0 then ⟨0, 0⟩
  else
    let (num, den) := x.ratio
    (f.searchGrid x (leadingPlace num den) 20).strip

/-! ## Layout -/

/-- The digits of a decimal and the place of the first of them. -/
def Decimal.layout (d : Decimal) : List Char × Int :=
  let ds := Nat.toDigits 10 d.digits
  (ds, d.exponent + ds.length - 1)

/-- Positional notation; a whole number is written with `fraction` at its end. -/
def Decimal.positional (d : Decimal) (fraction : String) : String :=
  let (ds, place) := d.layout
  if 0 ≤ d.exponent then
    String.ofList (ds ++ List.replicate d.exponent.toNat '0') ++ fraction
  else if 0 ≤ place then
    String.ofList (ds.take (place.toNat + 1) ++ '.' :: ds.drop (place.toNat + 1))
  else
    String.ofList ('0' :: '.' :: List.replicate ((-place).toNat - 1) '0' ++ ds)

/-- Scientific notation with a sign on every exponent. -/
def Decimal.scientific (d : Decimal) : String :=
  let (ds, place) := d.layout
  let mark := if 0 ≤ place then "e+" else "e-"
  let mantissa := match ds with
    | [] => []
    | [c] => [c]
    | c :: r => c :: '.' :: r
  String.ofList mantissa ++ mark ++ toString place.natAbs

def signText (negative : Bool) : String := if negative then "-" else ""

/-- The text of a number in JSON: positional while the leading digit stands between the fifth
place behind the point and the sixteenth before it. -/
def Format.jsonText (f : Format) (x : Finite) : String :=
  let d := f.shortest x
  let place := d.layout.2
  signText x.negative ++
    if -5 ≤ place ∧ place ≤ 15 then d.positional ".0" else d.scientific

/-- What a reader of another format takes from the shortest decimal of a number. -/
def Format.reread? (f target : Format) (x : Finite) : Option Finite :=
  let d := f.shortest x
  target.ofDecimal? x.negative d.digits d.exponent

/-- The text of a number in positional notation throughout, whole numbers without a fraction. -/
def Format.plainText (f : Format) (x : Finite) : String :=
  signText x.negative ++ (f.shortest x).positional ""

end ApiCanon.Binary
