import ApiCanon.Json.Value
import ApiCanon.Text.Bytes

/-!
# Reading JSON

A reader for exactly one value, blanks around it allowed.  It stops at the first fault, whose
place is a line and a column in bytes.  A fault is recorded as the number of bytes that follow
it; only once the whole text is at hand does that become a line and a column.

## Numbers

A literal without fraction and exponent that fits 64 bits is a whole number.  Any other is a
double: as many leading digits as 64 bits hold are rounded, then multiplied or divided by a
rounded power of ten.  The result is not always the nearest double.
-/

namespace ApiCanon.Json

/-- Why a text is not a JSON value. -/
inductive Cause where
  | endInList
  | endInObject
  | endInString
  | endInValue
  | colonExpected
  | listCommaOrEnd
  | objectCommaOrEnd
  | wordExpected
  | valueExpected
  | invalidEscape
  | invalidNumber
  | numberOutOfRange
  | controlCharacter
  | keyNotString
  | loneSurrogate
  | endOfEscape
  | trailingComma
  | trailingCharacters
  | tooDeep
  deriving DecidableEq, Repr

def Cause.message : Cause → String
  | endInList => "EOF while parsing a list"
  | endInObject => "EOF while parsing an object"
  | endInString => "EOF while parsing a string"
  | endInValue => "EOF while parsing a value"
  | colonExpected => "expected `:`"
  | listCommaOrEnd => "expected `,` or `]`"
  | objectCommaOrEnd => "expected `,` or `\x7d`"
  | wordExpected => "expected ident"
  | valueExpected => "expected value"
  | invalidEscape => "invalid escape"
  | invalidNumber => "invalid number"
  | numberOutOfRange => "number out of range"
  | controlCharacter => "control character (\\u0000-\\u001F) found while parsing a string"
  | keyNotString => "key must be a string"
  | loneSurrogate => "lone leading surrogate in hex escape"
  | endOfEscape => "unexpected end of hex escape"
  | trailingComma => "trailing comma"
  | trailingCharacters => "trailing characters"
  | tooDeep => "recursion limit exceeded"

/-- A fault and the number of bytes that follow its place. -/
structure Fault where
  cause : Cause
  left : Nat
  deriving DecidableEq, Repr

/-- A fault in front of `rest`. -/
def Fault.before (cause : Cause) (rest : List Char) : Fault := ⟨cause, utf8Length rest⟩

/-- A fault at the first byte of `rest`, which counts as read; at the end there is none to read. -/
def Fault.at (cause : Cause) (rest : List Char) : Fault := ⟨cause, utf8Length rest - 1⟩

/-- What is left of a text once the blanks of JSON are skipped. -/
def skipBlanks (s : List Char) : List Char :=
  s.dropWhile fun c => c == ' ' || c == '\n' || c == '\t' || c == '\r'

/-! ## Numbers -/

def digitValue (c : Char) : Nat := c.toNat - 48

def startsWithDigit : List Char → Bool
  | c :: _ => c.isDigit
  | [] => false

/-- Reads digits into a number while 64 bits hold it; also counts them. -/
def gatherDigits (acc count : Nat) : List Char → Nat × Nat × List Char
  | [] => (acc, count, [])
  | c :: r =>
    if c.isDigit && acc * 10 + digitValue c < Nat.pow 2 64 then
      gatherDigits (acc * 10 + digitValue c) (count + 1) r
    else (acc, count, c :: r)

/-- The double nearest to a power of ten. -/
def powerOfTen? (k : Nat) : Option Binary.Finite := Binary.double.ofNat? (Nat.pow 10 k)

/-- Divides by `10^308` as often as told, but no longer than until nothing is left. -/
def divideRepeatedly : Nat → Binary.Finite → Option Binary.Finite
  | 0, x => some x
  | n + 1, x =>
    if x.isZero then some x
    else do
      let p ← powerOfTen? 308
      let y ← Binary.double.div? x p
      divideRepeatedly n y

/-- A rounded number times a power of ten, the powers rounded too and at most `10^308` each. -/
def scaleByPower (x : Binary.Finite) (exponent : Int) : Option Binary.Finite :=
  if x.isZero then some x
  else if 308 < exponent then none
  else if 0 ≤ exponent then do
    let p ← powerOfTen? exponent.toNat
    Binary.double.mul? x p
  else do
    let down := exponent.natAbs
    let times := (down - 1) / 308
    let y ← divideRepeatedly times x
    let p ← powerOfTen? (down - 308 * times)
    Binary.double.div? y p

/-- The double of a significand and a power of ten. -/
def doubleOfParts (negative : Bool) (significand : Nat) (exponent : Int) (rest : List Char) :
    Except Fault (Number × List Char) :=
  match (Binary.double.ofNat? significand).bind (scaleByPower · exponent) with
  | some x => .ok (.float { x with negative := negative }, rest)
  | none => .error (.before .numberOutOfRange rest)

/-- Reads the digits of an exponent while 31 bits hold it: the exponent and the rest, or the rest
after the digit that is too much. -/
def gatherExponent (acc : Nat) : List Char → Except (List Char) (Nat × List Char)
  | [] => .ok (acc, [])
  | c :: r =>
    if c.isDigit then
      if acc * 10 + digitValue c < Nat.pow 2 31 then gatherExponent (acc * 10 + digitValue c) r
      else .error r
    else .ok (acc, c :: r)

/-- Reads the digits of an exponent, of which there must be one. -/
def readExponentDigits (negative down : Bool) (significand : Nat) (start : Int) :
    List Char → Except Fault (Number × List Char)
  | [] => .error (.before .endInValue [])
  | c :: r =>
    if !c.isDigit then .error (.at .invalidNumber (c :: r))
    else match gatherExponent (digitValue c) r with
      | .ok (e, rest) =>
        doubleOfParts negative significand (if down then start - e else start + e) rest
      | .error rest =>
        if significand ≠ 0 ∧ !down then .error (.before .numberOutOfRange rest)
        else .ok (.float ⟨negative, 0, Binary.double.least⟩, rest.dropWhile Char.isDigit)

/-- Reads an exponent, behind its mark. -/
def readExponent (negative : Bool) (significand : Nat) (start : Int) (s : List Char) :
    Except Fault (Number × List Char) :=
  match s with
  | '+' :: r => readExponentDigits negative false significand start r
  | '-' :: r => readExponentDigits negative true significand start r
  | r => readExponentDigits negative false significand start r

/-- Reads what may follow the digits of a double: an exponent or nothing. -/
def readMantissaEnd (negative : Bool) (significand : Nat) (exponent : Int) (s : List Char) :
    Except Fault (Number × List Char) :=
  match s with
  | 'e' :: r => readExponent negative significand exponent r
  | 'E' :: r => readExponent negative significand exponent r
  | r => doubleOfParts negative significand exponent r

/-- Reads the digits behind a point. -/
def readFraction (negative : Bool) (significand : Nat) (exponent : Int) (s : List Char) :
    Except Fault (Number × List Char) :=
  let (m, count, rest) := gatherDigits significand 0 s
  if startsWithDigit rest then
    readMantissaEnd negative m (exponent - count) (rest.dropWhile Char.isDigit)
  else if count = 0 then
    .error (if rest.isEmpty then .before .endInValue [] else .at .invalidNumber rest)
  else readMantissaEnd negative m (exponent - count) rest

/-- Reads what follows the whole part of a number that fits 64 bits. -/
def readNumberEnd (negative : Bool) (m : Nat) (s : List Char) : Except Fault (Number × List Char) :=
  match s with
  | '.' :: r => readFraction negative m 0 r
  | 'e' :: r => readExponent negative m 0 r
  | 'E' :: r => readExponent negative m 0 r
  | r =>
    if !negative then .ok (.int m, r)
    else if m = 0 ∨ Nat.pow 2 63 < m then
      (doubleOfParts true m 0 r)
    else .ok (.int (-m), r)

/-- Reads a number, behind its sign. -/
def readNumber (negative : Bool) (s : List Char) : Except Fault (Number × List Char) :=
  match s with
  | [] => .error (.before .endInValue [])
  | '0' :: r =>
    if startsWithDigit r then .error (.at .invalidNumber r) else readNumberEnd negative 0 r
  | c :: r =>
    if !c.isDigit then .error (.at .invalidNumber (c :: r))
    else
      let (m, _, rest) := gatherDigits (digitValue c) 0 r
      if startsWithDigit rest then
        let beyond := rest.takeWhile Char.isDigit
        match rest.dropWhile Char.isDigit with
        | '.' :: r => readFraction negative m beyond.length r
        | r => readMantissaEnd negative m beyond.length r
      else readNumberEnd negative m rest

/-! ## Texts -/

/-- The value of four hexadecimal digits. -/
def hexCode? (a b c d : Char) : Option Nat := do
  let a ← Bytes.hexValue? a
  let b ← Bytes.hexValue? b
  let c ← Bytes.hexValue? c
  let d ← Bytes.hexValue? d
  pure (((a * 16 + b) * 16 + c) * 16 + d)

/-- The fault of four bytes that are not hexadecimal digits, or are not there. -/
def hexFault (s : List Char) : Fault :=
  if utf8Length s < 4 then ⟨.endInString, 0⟩ else ⟨.invalidEscape, utf8Length s - 4⟩

/-- The character that a letter stands for behind a backslash. -/
def escaped? (c : Char) : Option Char :=
  match c with
  | '"' => some '"'
  | '\\' => some '\\'
  | '/' => some '/'
  | 'b' => some '\x08'
  | 'f' => some '\x0c'
  | 'n' => some '\n'
  | 'r' => some '\r'
  | 't' => some '\t'
  | _ => none

/-- Puts a character before the text that was read. -/
def consText (c : Char) (r : Except Fault (List Char × List Char)) :
    Except Fault (List Char × List Char) :=
  r.map fun (text, rest) => (c :: text, rest)

/-- Reads a text, behind its opening quote. -/
def readText : List Char → Except Fault (List Char × List Char)
  | [] => .error ⟨.endInString, 0⟩
  | '"' :: r => .ok ([], r)
  | '\\' :: 'u' :: a :: b :: c :: d :: r =>
    match hexCode? a b c d with
    | none => .error (hexFault (a :: b :: c :: d :: r))
    | some n =>
      if 0xDC00 ≤ n ∧ n ≤ 0xDFFF then .error (.before .loneSurrogate r)
      else if n < 0xD800 ∨ 0xDBFF < n then consText (Char.ofNat n) (readText r)
      else match r with
        | '\\' :: 'u' :: a :: b :: c :: d :: r =>
          match hexCode? a b c d with
          | none => .error (hexFault (a :: b :: c :: d :: r))
          | some m =>
            if m < 0xDC00 ∨ 0xDFFF < m then .error (.before .loneSurrogate r)
            else
              consText (Char.ofNat ((n - 0xD800) * 1024 + (m - 0xDC00) + 0x10000)) (readText r)
        | '\\' :: 'u' :: r => .error (hexFault r)
        | ['\\'] => .error ⟨.endInString, 0⟩
        | '\\' :: r => .error (.at .endOfEscape r)
        | [] => .error ⟨.endInString, 0⟩
        | r => .error (.at .endOfEscape r)
  | '\\' :: 'u' :: r => .error (hexFault r)
  | ['\\'] => .error ⟨.endInString, 0⟩
  | '\\' :: c :: r =>
    match escaped? c with
    | some e => consText e (readText r)
    | none => .error (.at .invalidEscape (c :: r))
  | c :: r =>
    if c.toNat < 32 then .error (.before .controlCharacter r) else consText c (readText r)

/-! ## Values -/

/-- Reads the letters of a word after its first. -/
def readWord (word : List Char) (v : Value) (s : List Char) : Except Fault (Value × List Char) :=
  match word, s with
  | [], s => .ok (v, s)
  | _ :: _, [] => .error (.before .endInValue [])
  | w :: ws, c :: r => if w = c then readWord ws v r else .error (.at .wordExpected (c :: r))

mutual
/-- Reads a value.  `depth` is the number of brackets that may still be opened; every call reads
a character, so that the length of the text bounds `fuel`. -/
def readValue (fuel depth : Nat) (s : List Char) : Except Fault (Value × List Char) :=
  match fuel with
  | 0 => .error (.before .endInValue s)
  | fuel + 1 =>
    match skipBlanks s with
    | [] => .error (.before .endInValue [])
    | 'n' :: r => readWord ['u', 'l', 'l'] .null r
    | 't' :: r => readWord ['r', 'u', 'e'] (.bool true) r
    | 'f' :: r => readWord ['a', 'l', 's', 'e'] (.bool false) r
    | '-' :: r => (readNumber true r).map fun (n, r) => (.number n, r)
    | '"' :: r => (readText r).map fun (t, r) => (.string (String.ofList t), r)
    | '[' :: r =>
      if depth ≤ 1 then .error (.at .tooDeep ('[' :: r))
      else (readItems fuel (depth - 1) true r).map fun (a, r) => (.array a, r)
    | '\x7b' :: r =>
      if depth ≤ 1 then .error (.at .tooDeep ('\x7b' :: r))
      else (readFields fuel (depth - 1) true [] r).map fun (f, r) => (.object f, r)
    | c :: r =>
      if c.isDigit then (readNumber false (c :: r)).map fun (n, r) => (.number n, r)
      else .error (.at .valueExpected (c :: r))

/-- Reads the items of a list and its closing bracket. -/
def readItems (fuel depth : Nat) (first : Bool) (s : List Char) :
    Except Fault (List Value × List Char) :=
  match fuel with
  | 0 => .error (.before .endInList s)
  | fuel + 1 =>
    match skipBlanks s with
    | [] => .error (.before .endInList [])
    | ']' :: r => .ok ([], r)
    | c :: r =>
      if first then readItem fuel depth (c :: r)
      else if c = ',' then
        match skipBlanks r with
        | [] => .error (.before .endInValue [])
        | ']' :: r => .error (.at .trailingComma (']' :: r))
        | r => readItem fuel depth r
      else .error (.at .listCommaOrEnd (c :: r))

/-- Reads one item and those after it. -/
def readItem (fuel depth : Nat) (s : List Char) : Except Fault (List Value × List Char) :=
  match fuel with
  | 0 => .error (.before .endInList s)
  | fuel + 1 => do
    let (v, r) ← readValue fuel depth s
    let (vs, r) ← readItems fuel depth false r
    pure (v :: vs, r)

/-- Reads the fields of an object, after those already read, and its closing brace. -/
def readFields (fuel depth : Nat) (first : Bool) (seen : Fields) (s : List Char) :
    Except Fault (Fields × List Char) :=
  match fuel with
  | 0 => .error (.before .endInObject s)
  | fuel + 1 =>
    match skipBlanks s with
    | [] => .error (.before .endInObject [])
    | '\x7d' :: r => .ok (seen, r)
    | c :: r =>
      if first then
        if c = '"' then readField fuel depth seen r else .error (.at .keyNotString (c :: r))
      else if c = ',' then
        match skipBlanks r with
        | [] => .error (.before .endInValue [])
        | '"' :: r => readField fuel depth seen r
        | '\x7d' :: r => .error (.at .trailingComma ('\x7d' :: r))
        | r => .error (.at .keyNotString r)
      else .error (.at .objectCommaOrEnd (c :: r))

/-- Reads one field, behind the quote of its key, and those after it. -/
def readField (fuel depth : Nat) (seen : Fields) (s : List Char) :
    Except Fault (Fields × List Char) :=
  match fuel with
  | 0 => .error (.before .endInObject s)
  | fuel + 1 => do
    let (k, r) ← readText s
    match skipBlanks r with
    | [] => .error (.before .endInObject [])
    | ':' :: r =>
      let (v, r) ← readValue fuel depth r
      readFields fuel depth false (seen.put (String.ofList k) v) r
    | r => .error (.at .colonExpected r)
end

/-! ## Documents -/

/-- A place in a text: its line, and the number of bytes before it on that line. -/
structure Position where
  line : Nat
  column : Nat
  deriving DecidableEq, Repr

/-- The place behind the first `n` bytes of a text. -/
def Position.after (p : Position) (n : Nat) : List Char → Position
  | [] => p
  | c :: r =>
    if n < c.utf8Size then ⟨p.line, p.column + n⟩
    else if c = '\n' then Position.after ⟨p.line + 1, 0⟩ (n - 1) r
    else Position.after ⟨p.line, p.column + c.utf8Size⟩ (n - c.utf8Size) r

/-- Why and where a document is not JSON. -/
structure ReadError where
  cause : Cause
  position : Position
  deriving DecidableEq, Repr

def ReadError.message (e : ReadError) : String :=
  s!"{e.cause.message} at line {e.position.line} column {e.position.column}"

/-- The number of brackets that may be open at once, plus one. -/
def depthLimit : Nat := 128

/-- Reads one value and the blanks after it. -/
def readChars (s : List Char) : Except Fault Value := do
  let (v, r) ← readValue (3 * s.length + 3) depthLimit s
  match skipBlanks r with
  | [] => pure v
  | r => .error (.at .trailingCharacters r)

/-- Reads a document. -/
def read (s : List Char) : Except ReadError Value :=
  match readChars s with
  | .ok v => .ok v
  | .error e => .error ⟨e.cause, Position.after ⟨1, 0⟩ (utf8Length s - e.left) s⟩

end ApiCanon.Json
