import ApiCanon.Binary.Shortest
import ApiCanon.Text.Search

/-!
# Decimal fractions

Numbers written with digits, a point and an exponent.  There is at least one digit before the
exponent, in front of the point or behind it, and an exponent has a digit too.
-/

namespace ApiCanon.Binary

namespace Decimal

/-- The number that digits stand for. -/
def natOfDigits (digits : List Char) : Nat :=
  digits.foldl (fun acc c => acc * 10 + (c.toNat - 48)) 0

/-- Reads digits with an optional sign, and nothing else. -/
def exponent? (s : List Char) : Option Int :=
  let (negative, digits) := match s with
    | '-' :: r => (true, r)
    | '+' :: r => (false, r)
    | _ => (false, s)
  if digits.isEmpty || !digits.all Char.isDigit then none
  else some (if negative then -(natOfDigits digits : Int) else natOfDigits digits)

/-- Reads a number without a sign. -/
def ofText? (s : List Char) : Option Decimal := do
  let whole := s.takeWhile Char.isDigit
  let rest := s.dropWhile Char.isDigit
  let (fraction, rest) := match rest with
    | '.' :: r => (r.takeWhile Char.isDigit, r.dropWhile Char.isDigit)
    | _ => ([], rest)
  if whole.isEmpty && fraction.isEmpty then none
  else
    let exponent ← match rest with
      | [] => some 0
      | c :: r => if c == 'e' || c == 'E' then exponent? r else none
    pure ⟨natOfDigits (whole ++ fraction), exponent - fraction.length⟩

end Decimal

/-- The number of a format nearest to a text, which may begin with a minus sign. -/
def Format.ofText? (f : Format) (s : List Char) : Option Finite :=
  match s with
  | '-' :: r => (Decimal.ofText? r).bind fun d => f.ofDecimal? true d.digits d.exponent
  | _ => (Decimal.ofText? s).bind fun d => f.ofDecimal? false d.digits d.exponent

end ApiCanon.Binary
