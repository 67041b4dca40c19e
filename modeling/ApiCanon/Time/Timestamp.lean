import ApiCanon.Text.Blank
import ApiCanon.Text.Case

/-!
# Moments and spans of time

A moment is a number of seconds since 1970 and a number of nanoseconds into that second; a leap
second is written as more than a billion of them.  Moments are read from and written as texts in
the Internet date and time format, in universal time.  A span is a number of nanoseconds.
-/

namespace ApiCanon

/-- A moment in universal time. -/
structure Timestamp where
  seconds : Int
  nanos : Nat
  deriving DecidableEq, Repr, Inhabited

namespace Timestamp

/-! ## Calendar -/

/-- The number of days from 1970-01-01 to a date. -/
def daysOfDate (year month day : Int) : Int :=
  let y := if month ≤ 2 then year - 1 else year
  let era := Int.fdiv y 400
  let yoe := y - era * 400
  let doy := (153 * (month + (if month > 2 then -3 else 9)) + 2) / 5 + day - 1
  let doe := yoe * 365 + yoe / 4 - yoe / 100 + doy
  era * 146097 + doe - 719468

/-- The year, month and day of a number of days since 1970-01-01. -/
def dateOfDays (days : Int) : Int × Int × Int :=
  let z := days + 719468
  let era := Int.fdiv z 146097
  let doe := z - era * 146097
  let yoe := (doe - doe / 1460 + doe / 36524 - doe / 146096) / 365
  let doy := doe - (365 * yoe + yoe / 4 - yoe / 100)
  let mp := (5 * doy + 2) / 153
  let d := doy - (153 * mp + 2) / 5 + 1
  let m := if mp < 10 then mp + 3 else mp - 9
  ((if m ≤ 2 then yoe + era * 400 + 1 else yoe + era * 400), m, d)

/-- Whether the year, the month and the day make a date. -/
def isDate (year month day : Int) : Bool :=
  1 ≤ month && month ≤ 12 && 1 ≤ day && day ≤ 31 &&
    dateOfDays (daysOfDate year month day) == (year, month, day)

/-- The years of the calendar. -/
def leastYear : Int := -262143

def greatestYear : Int := 262142

/-- Whether a moment lies in the calendar. -/
def inCalendar (t : Timestamp) : Bool :=
  daysOfDate leastYear 1 1 * 86400 ≤ t.seconds &&
    t.seconds < daysOfDate (greatestYear + 1) 1 1 * 86400

/-! ## Order -/

/-- Whether a moment is earlier than another or the same. -/
def le (s t : Timestamp) : Bool :=
  s.seconds < t.seconds || (s.seconds == t.seconds && s.nanos ≤ t.nanos)

/-! ## Writing -/

/-- A number with at least `width` digits. -/
def padded (width n : Nat) : String :=
  let ds := Nat.toDigits 10 n
  String.ofList (List.replicate (width - ds.length) '0' ++ ds)

/-- The fraction of a second in three, six or nine digits, as many as it needs. -/
def fractionText (nanos : Nat) : String :=
  if nanos = 0 then ""
  else if nanos % 1000000 = 0 then "." ++ padded 3 (nanos / 1000000)
  else if nanos % 1000 = 0 then "." ++ padded 6 (nanos / 1000)
  else "." ++ padded 9 nanos

/-- Four digits for the years of the common range, a sign and at least four for the others. -/
def yearText (y : Int) : String :=
  if 0 ≤ y ∧ y ≤ 9999 then padded 4 y.toNat
  else (if y < 0 then "-" else "+") ++ padded 4 y.natAbs

/-- The text of a moment. -/
def text (t : Timestamp) : String :=
  let (y, m, d) := dateOfDays (Int.fdiv t.seconds 86400)
  let s := (Int.fmod t.seconds 86400).toNat
  let leap := t.nanos / 1000000000
  yearText y ++ "-" ++ padded 2 m.toNat ++ "-" ++ padded 2 d.toNat ++ "T" ++
    padded 2 (s / 3600) ++ ":" ++ padded 2 (s / 60 % 60) ++ ":" ++ padded 2 (s % 60 + leap) ++
    fractionText (t.nanos % 1000000000) ++ "Z"

/-! ## Reading -/

/-- Why a text is not a moment. -/
inductive Fault where
  | outOfRange
  | tooShort
  | invalid
  | trailing
  deriving DecidableEq, Repr

def Fault.message : Fault → String
  | outOfRange => "input is out of range"
  | tooShort => "premature end of input"
  | invalid => "input contains invalid characters"
  | trailing => "trailing input"

/-- Reads at most `width` digits, at least one; `acc` is the number read so far. -/
def digits (width : Nat) (acc : Option Nat) : List Char → Except Fault (Nat × List Char)
  | [] => match acc with
    | some n => .ok (n, [])
    | none => .error .tooShort
  | c :: r =>
    match width with
    | 0 => .ok (acc.getD 0, c :: r)
    | w + 1 =>
      if c.isDigit then
        let n := acc.getD 0 * 10 + (c.toNat - 48)
        if n < Nat.pow 2 63 then digits w (some n) r else .error .outOfRange
      else match acc with
        | some n => .ok (n, c :: r)
        | none => .error .invalid

/-- Reads a field of two digits between two bounds. -/
def field (low high : Nat) (s : List Char) : Except Fault (Nat × List Char) := do
  let (n, r) ← digits 2 none (Text.trimLeft s)
  if low ≤ n ∧ n ≤ high then pure (n, r) else .error .outOfRange

/-- Reads a year: four digits, or any number of them behind a sign. -/
def yearField (s : List Char) : Except Fault (Int × List Char) := do
  let (y, r) ← match Text.trimLeft s with
    | '-' :: r => do
      let (n, r) ← digits r.length none r
      pure (-(n : Int), r)
    | '+' :: r => do
      let (n, r) ← digits r.length none r
      pure ((n : Int), r)
    | r => do
      let (n, r) ← digits 4 none r
      pure ((n : Int), r)
  if -Nat.pow 2 31 ≤ y ∧ y < Nat.pow 2 31 then pure (y, r) else .error .outOfRange

/-- Reads a separator, blanks in front of it allowed. -/
def separator (c : Char) (s : List Char) : Except Fault (List Char) :=
  match Text.trimLeft s with
  | [] => .error .tooShort
  | d :: r => if d = c then .ok r else .error .invalid

/-- Reads a fraction of a second, in nanoseconds; digits after the ninth do not count. -/
def fraction (s : List Char) : Except Fault (Nat × List Char) :=
  match s with
  | '.' :: r => do
    let (n, rest) ← digits 9 none r
    let count := r.length - rest.length
    pure (n * Nat.pow 10 (9 - count), rest.dropWhile Char.isDigit)
  | r => .ok (0, r)

/-- Reads the offset from universal time, in seconds. -/
def offset (s : List Char) : Except Fault (Int × List Char) := do
  let (sign, s) ← match s with
    | '+' :: r => pure ((1 : Int), r)
    | '-' :: r => pure (-1, r)
    | '−' :: r => pure (-1, r)
    | [] => .error Fault.tooShort
    | _ => .error .invalid
  let (hours, s) ← match s with
    | a :: b :: r =>
      if a.isDigit && b.isDigit then pure ((a.toNat - 48) * 10 + (b.toNat - 48), r)
      else .error .invalid
    | _ => .error .tooShort
  match s.dropWhile fun c => c == ':' || Text.isBlank c with
  | a :: b :: r =>
    if a.isDigit && b.isDigit then
      if a.toNat < 54 then
        pure (sign * ((hours * 3600 + ((a.toNat - 48) * 10 + (b.toNat - 48)) * 60 : Nat) : Int), r)
      else .error .outOfRange
    else .error .invalid
  | _ => .error .tooShort

/-- Reads the name of universal time or an offset from it. -/
def zone (s : List Char) : Except Fault (Int × List Char) :=
  match s with
  | 'Z' :: r => .ok (0, r)
  | 'z' :: r => .ok (0, r)
  | a :: b :: c :: r =>
    if [a, b, c].map Text.asciiUpperChar = ['U', 'T', 'C'] then .ok (0, r)
    else offset (a :: b :: c :: r)
  | r => offset r

/-- Reads a moment. -/
def read (text : List Char) : Except Fault Timestamp := do
  let (year, s) ← yearField text
  let s ← separator '-' s
  let (month, s) ← field 1 12 s
  let s ← separator '-' s
  let (day, s) ← field 1 31 s
  let s ← match s with
    | [] => .error .tooShort
    | c :: r => if c == 't' || c == 'T' || c == ' ' then .ok r else .error .invalid
  let (hour, s) ← field 0 23 s
  let s ← separator ':' s
  let (minute, s) ← field 0 59 s
  let s ← separator ':' s
  let (second, s) ← field 0 60 s
  let (nanos, s) ← fraction s
  let (shift, s) ← zone (Text.trimLeft s)
  if !(Text.trimLeft s).isEmpty then .error .trailing
  else if 86400 ≤ shift.natAbs then .error .outOfRange
  else if !isDate year month day then .error .outOfRange
  else
    let (second, nanos) := if second = 60 then (59, nanos + 1000000000) else (second, nanos)
    let t : Timestamp :=
      ⟨daysOfDate year month day * 86400 + hour * 3600 + minute * 60 + second - shift, nanos⟩
    if inCalendar t then pure t else .error .outOfRange

end Timestamp

/-- A span of time in nanoseconds. -/
structure Span where
  nanos : Nat
  deriving DecidableEq, Repr, Inhabited

namespace Span

def ofSeconds (n : Nat) : Span := ⟨n * 1000000000⟩

def ofMillis (n : Nat) : Span := ⟨n * 1000000⟩

/-- Whole milliseconds; what is left over does not count. -/
def millis (d : Span) : Nat := d.nanos / 1000000

/-- A number with a fraction of up to `width` digits, zeros at its end left out. -/
def withFraction (whole fraction width : Nat) : String :=
  let ds := (Timestamp.padded width fraction).toList
  let ds := (ds.reverse.dropWhile (· == '0')).reverse
  if ds.isEmpty then toString whole else toString whole ++ "." ++ String.ofList ds

/-- The text of a span in the largest unit of which it holds a whole one. -/
def text (d : Span) : String :=
  let n := d.nanos
  if 1000000000 ≤ n then withFraction (n / 1000000000) (n % 1000000000) 9 ++ "s"
  else if 1000000 ≤ n then withFraction (n / 1000000) (n % 1000000) 6 ++ "ms"
  else if 1000 ≤ n then withFraction (n / 1000) (n % 1000) 3 ++ "µs"
  else toString n ++ "ns"

end Span

namespace Timestamp

/-- The longest span by which a moment is moved: as many milliseconds as 63 bits count. -/
def longestSpan : Span := .ofMillis (Nat.pow 2 63 - 1)

/-- The sum of a moment and a span.  A moment within a leap second stays in it while the sum
does. -/
def plus (t : Timestamp) (d : Span) : Timestamp :=
  let n := t.nanos + d.nanos
  if 1000000000 ≤ t.nanos ∧ n < 2000000000 then ⟨t.seconds, n⟩
  else if 1000000000 ≤ t.nanos then
    let n := n - 1000000000
    ⟨t.seconds + (n / 1000000000 : Nat), n % 1000000000⟩
  else ⟨t.seconds + (n / 1000000000 : Nat), n % 1000000000⟩

/-- The moment a span later, unless the span is too long or the sum is not in the calendar. -/
def after? (t : Timestamp) (d : Span) : Option Timestamp :=
  if d.nanos ≤ longestSpan.nanos ∧ inCalendar (t.plus d) then some (t.plus d) else none

/-- The moment a span earlier. -/
def before (t : Timestamp) (d : Span) : Timestamp :=
  let n : Int := (t.nanos : Int) - d.nanos
  ⟨t.seconds + Int.fdiv n 1000000000, (Int.fmod n 1000000000).toNat⟩

/-- The number of milliseconds since 1970, rounded down. -/
def millis (t : Timestamp) : Int := t.seconds * 1000 + (t.nanos / 1000000 : Nat)

/-- The moment of a number of milliseconds since 1970. -/
def ofMillis (n : Int) : Timestamp :=
  ⟨Int.fdiv n 1000, (Int.fmod n 1000).toNat * 1000000⟩

end Timestamp

end ApiCanon
