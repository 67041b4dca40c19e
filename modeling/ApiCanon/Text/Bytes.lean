/-!
# Bytes of a text

Contents are lists of bytes.  They are shown in lower-case hexadecimal, and read as UTF-8 with
the place of the first fault: a sequence is either wrong from some byte on, with the number of
bytes that belong to it, or cut off by the end of the contents.
-/

namespace ApiCanon

/-- The contents of a source or of a cache entry. -/
abbrev Bytes := List UInt8

namespace Bytes

/-- The bytes of a text in UTF-8. -/
def ofString (s : String) : Bytes := s.toUTF8.toList

/-! ## Hexadecimal -/

/-- The digit of a number below sixteen. -/
def hexDigit (n : Nat) : Char :=
  if n < 10 then Char.ofNat (48 + n) else Char.ofNat (87 + n)

/-- Two lower-case digits for each byte. -/
def toHex (b : Bytes) : String :=
  String.ofList (b.flatMap fun x => [hexDigit (x.toNat / 16), hexDigit (x.toNat % 16)])

/-- The value of a hexadecimal digit of either case. -/
def hexValue? (c : Char) : Option Nat :=
  if c.isDigit then some (c.toNat - 48)
  else if 'a' ≤ c ∧ c ≤ 'f' then some (c.toNat - 87)
  else if 'A' ≤ c ∧ c ≤ 'F' then some (c.toNat - 55)
  else none

/-- Reads pairs of digits. -/
def ofHexChars? : List Char → Option Bytes
  | [] => some []
  | [_] => none
  | a :: b :: r => do
    let x ← hexValue? a
    let y ← hexValue? b
    let rest ← ofHexChars? r
    pure (UInt8.ofNat (16 * x + y) :: rest)

def ofHex? (s : String) : Option Bytes := ofHexChars? s.toList

/-! ## UTF-8 -/

/-- Why contents are not UTF-8: at byte `index` starts a sequence that is wrong after `length`
bytes, or one that the end cuts off (`length = none`). -/
structure Utf8Fault where
  index : Nat
  length : Option Nat
  deriving DecidableEq, Repr

/-- The text of the fault, as shown to a user. -/
def Utf8Fault.message (e : Utf8Fault) : String :=
  match e.length with
  | some n => s!"invalid utf-8 sequence of {n} bytes from index {e.index}"
  | none => s!"incomplete utf-8 byte sequence from index {e.index}"

/-- Whether a byte may follow inside of a sequence. -/
def isContinuation (b : UInt8) : Bool := b &&& 0xC0 == 0x80

/-- Whether the second byte is allowed after the first: no overlong form, no surrogate and
nothing above the last code point. -/
def secondFits (a b : UInt8) : Bool :=
  if a == 0xE0 then 0xA0 ≤ b && b ≤ 0xBF
  else if a == 0xED then 0x80 ≤ b && b ≤ 0x9F
  else if a == 0xF0 then 0x90 ≤ b && b ≤ 0xBF
  else if a == 0xF4 then 0x80 ≤ b && b ≤ 0x8F
  else isContinuation b

/-- The payload bits of a byte inside of a sequence. -/
def payload (b : UInt8) : Nat := (b &&& 0x3F).toNat

/-- Reads one character after another; `index` is the place of the first byte. -/
def decodeFrom (index : Nat) : Bytes → Except Utf8Fault (List Char)
  | [] => .ok []
  | a :: r =>
    if a < 0x80 then
      (decodeFrom (index + 1) r).map (Char.ofNat a.toNat :: ·)
    else if 0xC2 ≤ a && a ≤ 0xDF then
      match r with
      | [] => .error ⟨index, none⟩
      | b :: r =>
        if isContinuation b then
          (decodeFrom (index + 2) r).map
            (Char.ofNat ((a &&& 0x1F).toNat * 64 + payload b) :: ·)
        else .error ⟨index, some 1⟩
    else if 0xE0 ≤ a && a ≤ 0xEF then
      match r with
      | [] => .error ⟨index, none⟩
      | b :: r =>
        if !secondFits a b then .error ⟨index, some 1⟩
        else match r with
          | [] => .error ⟨index, none⟩
          | c :: r =>
            if isContinuation c then
              (decodeFrom (index + 3) r).map
                (Char.ofNat (((a &&& 0x0F).toNat * 64 + payload b) * 64 + payload c) :: ·)
            else .error ⟨index, some 2⟩
    else if 0xF0 ≤ a && a ≤ 0xF4 then
      match r with
      | [] => .error ⟨index, none⟩
      | b :: r =>
        if !secondFits a b then .error ⟨index, some 1⟩
        else match r with
          | [] => .error ⟨index, none⟩
          | c :: r =>
            if !isContinuation c then .error ⟨index, some 2⟩
            else match r with
              | [] => .error ⟨index, none⟩
              | d :: r =>
                if isContinuation d then
                  (decodeFrom (index + 4) r).map
                    (Char.ofNat ((((a &&& 0x07).toNat * 64 + payload b) * 64 + payload c) * 64
                      + payload d) :: ·)
                else .error ⟨index, some 3⟩
    else .error ⟨index, some 1⟩

/-- The characters of contents in UTF-8. -/
def decode (b : Bytes) : Except Utf8Fault (List Char) := decodeFrom 0 b

/-- The text of contents in UTF-8, if they are. -/
def toString? (b : Bytes) : Option String :=
  match decode b with
  | .ok cs => some (String.ofList cs)
  | .error _ => none

end Bytes

/-- The number of bytes of a list of characters in UTF-8. -/
def utf8Length (s : List Char) : Nat := s.foldl (fun n c => n + c.utf8Size) 0

end ApiCanon
