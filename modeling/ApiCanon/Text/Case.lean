import ApiCanon.Text.CaseTable

/-!
# Upper and lower case

`lower` is the full lower-casing of Unicode: one small letter for each capital, two characters
for `İ`, and the final form of sigma at the end of a word.  The ASCII maps leave all other
characters alone.
-/

namespace ApiCanon.Text

/-! ## ASCII -/

/-- The small form of an ASCII capital; other characters stay. -/
def asciiLowerChar (c : Char) : Char := if c.isUpper then Char.ofNat (c.toNat + 32) else c

/-- The capital form of a small ASCII letter; other characters stay. -/
def asciiUpperChar (c : Char) : Char := if c.isLower then Char.ofNat (c.toNat - 32) else c

def asciiLower (s : String) : String := s.map asciiLowerChar

def asciiUpper (s : String) : String := s.map asciiUpperChar

/-! ## Unicode -/

namespace Case

/-- Whether one of the ranges holds the code point. -/
def inRanges (table : Array (Nat × Nat)) (n : Nat) : Bool :=
  table.any fun (first, last) => first ≤ n && n ≤ last

/-- The distance from a capital to its small letter, if the table has one. -/
def distance? (n : Nat) : Option Int :=
  capitals.findSome? fun (first, last, step, delta) =>
    if first ≤ n && n ≤ last && (n - first) % step == 0 then some delta else none

/-- The small form of a character outside of its context. -/
def lowerChar (c : Char) : List Char :=
  if c.toNat < 128 then [asciiLowerChar c]
  else if c == 'İ' then ['i', '\u0307']
  else match distance? c.toNat with
    | some delta => [Char.ofNat (Int.ofNat c.toNat + delta).toNat]
    | none => [c]

/-- Whether a letter with case comes first once the ignorable characters are skipped. -/
def startsCased (s : List Char) : Bool :=
  match s.dropWhile (fun c => inRanges ignorable c.toNat) with
  | [] => false
  | c :: _ => inRanges cased c.toNat

end Case

/-- Lower-cases a text of which `before` (reversed) has been seen.  A capital sigma takes its
final form after a letter, unless a letter follows. -/
def lowerFrom (before : List Char) : List Char → List Char
  | [] => []
  | c :: r =>
    (if c == 'Σ' then
      if Case.startsCased before && !Case.startsCased r then ['ς'] else ['σ']
    else Case.lowerChar c) ++ lowerFrom (c :: before) r

/-- The full lower-casing of a text. -/
def lower (s : String) : String := String.ofList (lowerFrom [] s.toList)

end ApiCanon.Text
