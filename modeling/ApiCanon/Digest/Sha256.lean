import ApiCanon.Text.Bytes
import ApiCanon.Time.Timestamp

/-!
# SHA-256

The digest that names contents: keys of the cache and identifiers derived from contents are
built from its hexadecimal text.  There are two kinds of reproducible identifiers: the next number
behind a name, and the first sixteen digits of the digest of some contents.

Main statement: the text of a digest always has 64 digits.
-/

namespace ApiCanon.Sha256

/-- The eight words of a running digest. -/
structure State where
  a : UInt32
  b : UInt32
  c : UInt32
  d : UInt32
  e : UInt32
  f : UInt32
  g : UInt32
  h : UInt32
  deriving DecidableEq, Repr

/-- The digest before the first block. -/
def start : State :=
  ⟨0x6a09e667, 0xbb67ae85, 0x3c6ef372, 0xa54ff53a, 0x510e527f, 0x9b05688c, 0x1f83d9ab, 0x5be0cd19⟩

/-- The constants of the 64 rounds. -/
def roundConstants : List UInt32 := [
  0x428a2f98, 0x71374491, 0xb5c0fbcf, 0xe9b5dba5, 0x3956c25b, 0x59f111f1, 0x923f82a4, 0xab1c5ed5,
  0xd807aa98, 0x12835b01, 0x243185be, 0x550c7dc3, 0x72be5d74, 0x80deb1fe, 0x9bdc06a7, 0xc19bf174,
  0xe49b69c1, 0xefbe4786, 0x0fc19dc6, 0x240ca1cc, 0x2de92c6f, 0x4a7484aa, 0x5cb0a9dc, 0x76f988da,
  0x983e5152, 0xa831c66d, 0xb00327c8, 0xbf597fc7, 0xc6e00bf3, 0xd5a79147, 0x06ca6351, 0x14292967,
  0x27b70a85, 0x2e1b2138, 0x4d2c6dfc, 0x53380d13, 0x650a7354, 0x766a0abb, 0x81c2c92e, 0x92722c85,
  0xa2bfe8a1, 0xa81a664b, 0xc24b8b70, 0xc76c51a3, 0xd192e819, 0xd6990624, 0xf40e3585, 0x106aa070,
  0x19a4c116, 0x1e376c08, 0x2748774c, 0x34b0bcb5, 0x391c0cb3, 0x4ed8aa4a, 0x5b9cca4f, 0x682e6ff3,
  0x748f82ee, 0x78a5636f, 0x84c87814, 0x8cc70208, 0x90befffa, 0xa4506ceb, 0xbef9a3f7, 0xc67178f2]

/-- Turns the bits of a word to the right. -/
def rotate (x : UInt32) (n : UInt32) : UInt32 := (x >>> n) ||| (x <<< (32 - n))

/-- The word sixteen places after the first of the window. -/
def nextWord (w : List UInt32) : UInt32 :=
  match w with
  | [w0, w1, _, _, _, _, _, _, _, w9, _, _, _, _, w14, _] =>
    let s0 := rotate w1 7 ^^^ rotate w1 18 ^^^ (w1 >>> 3)
    let s1 := rotate w14 17 ^^^ rotate w14 19 ^^^ (w14 >>> 10)
    w0 + s0 + w9 + s1
  | _ => 0

/-- One round with a constant and a word. -/
def step (s : State) (k w : UInt32) : State :=
  let s1 := rotate s.e 6 ^^^ rotate s.e 11 ^^^ rotate s.e 25
  let ch := (s.e &&& s.f) ^^^ ((s.e ^^^ 0xffffffff) &&& s.g)
  let t1 := s.h + s1 + ch + k + w
  let s0 := rotate s.a 2 ^^^ rotate s.a 13 ^^^ rotate s.a 22
  let maj := (s.a &&& s.b) ^^^ (s.a &&& s.c) ^^^ (s.b &&& s.c)
  ⟨t1 + (s0 + maj), s.a, s.b, s.c, s.d + t1, s.e, s.f, s.g⟩

/-- The rounds of one block; the window holds the next sixteen words. -/
def rounds (s : State) (window : List UInt32) : List UInt32 → State
  | [] => s
  | k :: ks =>
    match window with
    | w :: r => rounds (step s k w) (r ++ [nextWord window]) ks
    | [] => s

/-- The digest after one more block of sixteen words. -/
def absorb (s : State) (block : List UInt32) : State :=
  let t := rounds s block roundConstants
  ⟨s.a + t.a, s.b + t.b, s.c + t.c, s.d + t.d, s.e + t.e, s.f + t.f, s.g + t.g, s.h + t.h⟩

/-- The big-endian bytes of a number, `n` of them. -/
def bigEndian : Nat → Nat → Bytes
  | 0, _ => []
  | n + 1, x => UInt8.ofNat (x / Nat.pow 256 n) :: bigEndian n (x % Nat.pow 256 n)

/-- The message with its closing bit, zeros and length, a whole number of blocks. -/
def padded (m : Bytes) : Bytes :=
  m ++ 0x80 :: List.replicate ((119 - m.length % 64) % 64) 0 ++ bigEndian 8 (8 * m.length)

/-- Groups bytes into big-endian words. -/
def wordsOf : Bytes → List UInt32
  | a :: b :: c :: d :: r =>
    UInt32.ofNat (((a.toNat * 256 + b.toNat) * 256 + c.toNat) * 256 + d.toNat) :: wordsOf r
  | _ => []

/-- Absorbs the words block by block; `pending` holds the block under way, reversed, and `room`
the number of words that it still takes. -/
def absorbAll (s : State) (pending : List UInt32) (room : Nat) : List UInt32 → State
  | [] => s
  | w :: r =>
    match room with
    | 0 | 1 => absorbAll (absorb s (w :: pending).reverse) [] 16 r
    | n + 2 => absorbAll s (w :: pending) (n + 1) r

/-- The digest of a message. -/
def digest (m : Bytes) : State := absorbAll start [] 16 (wordsOf (padded m))

/-- The eight hexadecimal digits of a word. -/
def wordHex (w : UInt32) : List Char :=
  [w >>> 28, w >>> 24, w >>> 20, w >>> 16, w >>> 12, w >>> 8, w >>> 4, w].map
    fun x => Bytes.hexDigit (x &&& 15).toNat

/-- The 64 hexadecimal digits of a digest. -/
def State.hexChars (s : State) : List Char :=
  [s.a, s.b, s.c, s.d, s.e, s.f, s.g, s.h].flatMap wordHex

/-- The digest of a message as 64 hexadecimal digits. -/
def hex (m : Bytes) : String := String.ofList (digest m).hexChars

theorem length_hexChars (s : State) : s.hexChars.length = 64 := by
  simp [State.hexChars, wordHex]

theorem length_hex (m : Bytes) : (hex m).length = 64 := by
  simp [hex, length_hexChars]

end ApiCanon.Sha256

namespace ApiCanon

/-! ## Identifiers -/

/-- A counter of identifiers with one name; the first identifier has number one. -/
structure Allocator where
  name : String
  allocated : Nat
  deriving DecidableEq, Repr, Inhabited

namespace Allocator

def start (name : String) : Allocator := ⟨name, 0⟩

/-- The identifier with a number: at least six digits behind the name. -/
def identifier (name : String) (n : Nat) : String := name ++ "-" ++ Timestamp.padded 6 n

/-- The next identifier. -/
def next (a : Allocator) : String × Allocator :=
  (identifier a.name (a.allocated + 1), { a with allocated := a.allocated + 1 })

end Allocator

/-- The identifier of some contents. -/
def contentId (name : String) (content : Bytes) : String :=
  name ++ "-" ++ String.ofList ((Sha256.digest content).hexChars.take 16)

end ApiCanon
