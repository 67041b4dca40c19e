import ApiCanon.Binary.Decimal
import ApiCanon.Binary.Shortest
import ApiCanon.Time.Timestamp
import ApiCanon.Toml.Fault

/-!
# Values and scalars of TOML

A document holds texts, whole numbers of 64 bits, doubles with infinities, truth values, points in
time, lists and tables.  A point in time is kept as its text in normal form.

The scalars are texts in four notations, numbers in four bases, doubles, and points in time.

A reader of this module is called in front of the first character of its notation.  The forms of
numbers and of points in time share their beginnings; they are tried in a fixed order, points in
time first, and a form that has come beyond what the others share is not given up any more.
-/

namespace ApiCanon.Toml

open Timestamp (padded)

/-! ## Values -/

/-- A double: finite, infinite, or not a number. -/
inductive Real where
  | finite (x : Binary.Finite)
  | infinite (negative : Bool)
  | notANumber (negative : Bool)
  deriving DecidableEq, Repr, Inhabited

/-- The text of a double in a message, in positional notation. -/
def Real.text : Real → String
  | finite x => Binary.double.plainText x
  | infinite negative => Binary.signText negative ++ "inf"
  | notANumber _ => "NaN"

/-- A value of a document. -/
inductive Value where
  | text (s : String)
  | whole (i : Int)
  | real (x : Real)
  | flag (b : Bool)
  | moment (s : String)
  | list (items : List Value)
  | table (entries : List (String × Value))
  deriving Repr, Inhabited

/-- How the kind of a value is called. -/
def Value.kind : Value → String
  | text _ => "string"
  | whole _ => "integer"
  | real _ => "float"
  | flag _ => "boolean"
  | moment _ => "datetime"
  | list _ => "array"
  | table _ => "inline table"

/-! ## Blanks, line ends and comments -/

def isBlank (c : Char) : Bool := c == ' ' || c == '\t'

def skipBlanks (s : List Char) : List Char := s.dropWhile isBlank

/-- What may stand in a comment. -/
def inComment (c : Char) : Bool := c == '\t' || (32 ≤ c.toNat && c.toNat != 127)

/-- What follows a line break, if there is one. -/
def lineBreak? : List Char → Option (List Char)
  | '\n' :: r => some r
  | '\r' :: '\n' :: r => some r
  | _ => none

/-- What follows a comment, if there is one. -/
def skipComment : List Char → List Char
  | '#' :: r => r.dropWhile inComment
  | s => s

/-- Skips blanks and line breaks. -/
def skipSpace : List Char → List Char
  | '\n' :: r => skipSpace r
  | '\r' :: '\n' :: r => skipSpace r
  | c :: r => if isBlank c then skipSpace r else c :: r
  | [] => []

/-- Skips blanks, line breaks and comments; `fuel` bounds the number of comments. -/
def skipLines : Nat → List Char → List Char
  | 0, s => skipSpace s
  | fuel + 1, s =>
    match skipSpace s with
    | '#' :: r => skipLines fuel (r.dropWhile inComment)
    | s => s

/-- The end of a line: blanks, a comment, and a line break or the end of the document. -/
def lineEnd (s : List Char) : Reading Unit :=
  let s := skipComment (skipBlanks s)
  match s, lineBreak? s with
  | [], _ => .ok ((), [])
  | _, some r => .ok ((), r)
  | _, none => .error (.expecting s ["newline", "\x60#\x60"])

/-! ## Texts -/

/-- What may stand in a text between double quotes as it is. -/
def inBasic (c : Char) : Bool :=
  c == ' ' || c == '\t' || (0x21 ≤ c.toNat && c.toNat != 0x7f && c != '"' && c != '\\')

/-- What may stand in a text between single quotes. -/
def inLiteral (c : Char) : Bool := inComment c && c != '\''

def isHex (c : Char) : Bool :=
  c.isDigit || ('a' ≤ c && c ≤ 'f') || ('A' ≤ c && c ≤ 'F')

def hexValue (c : Char) : Nat :=
  if c.isDigit then c.toNat - 48
  else if 'a' ≤ c then c.toNat - 87 else c.toNat - 55

/-- The number that digits stand for in a base. -/
def natInBase (base : Nat) (digits : List Char) : Nat :=
  digits.foldl (fun acc c => acc * base + hexValue c) 0

/-- A character by the number of its code point, which has a fixed number of digits. -/
def codePoint (count : Nat) (s : List Char) : Reading Char :=
  let digits := s.take count
  if digits.length = count && digits.all isHex then
    let n := natInBase 16 digits
    if n < 0xD800 || (0xE000 ≤ n && n < 0x110000) then .ok (Char.ofNat n, s.drop count)
    else .error (.breaking s .outOfRange)
  else .error (.before s .nothing)

/-- What may follow a backslash. -/
def escapeLetters : List String :=
  ["\x60b\x60", "\x60f\x60", "\x60n\x60", "\x60r\x60", "\x60t\x60", "\x60u\x60", "\x60U\x60",
    "\x60\\\x60", "\x60\"\x60"]

/-- The character that an escape behind its backslash stands for. -/
def escaped : List Char → Reading Char
  | 'b' :: r => .ok (Char.ofNat 8, r)
  | 'f' :: r => .ok (Char.ofNat 12, r)
  | 'n' :: r => .ok ('\n', r)
  | 'r' :: r => .ok ('\r', r)
  | 't' :: r => .ok ('\t', r)
  | '\\' :: r => .ok ('\\', r)
  | '"' :: r => .ok ('"', r)
  | 'u' :: r => ((codePoint 4 r).decided).about "unicode 4-digit hex code"
  | 'U' :: r => ((codePoint 8 r).decided).about "unicode 8-digit hex code"
  | _ :: r => Reading.about "escape sequence" (.error (.expecting r escapeLetters))
  | [] => .error (.before [] .nothing)

/-- The rest of a text between double quotes on one line; `read` is what comes first, turned
around. -/
def basicRest : Nat → List Char → List Char → Reading String
  | 0, _, s => .error ⟨⟨some "basic string", [], none⟩, s.length, true⟩
  | fuel + 1, read, s =>
    match s with
    | '"' :: r => .ok (String.ofList read.reverse, r)
    | '\\' :: c :: r =>
      match escaped (c :: r) with
      | .ok (c, r) => basicRest fuel (c :: read) r
      | .error f => .error f
    | c :: r =>
      if inBasic c then basicRest fuel (c :: read) r
      else .error ⟨⟨some "basic string", [], none⟩, s.length, true⟩
    | [] => .error ⟨⟨some "basic string", [], none⟩, 0, true⟩

/-- The number of quotes at the beginning. -/
def quoteRun (quote : Char) (s : List Char) : Nat := (s.takeWhile (· == quote)).length

/-- Skips the line breaks and blanks behind a backslash at the end of a line. -/
def joinedLine? (s : List Char) : Option (List Char) :=
  (lineBreak? (skipBlanks s)).map skipSpace

/-- The rest of a text between threefold double quotes.  One or two quotes belong to the text,
also in front of the closing ones. -/
def longBasicRest : Nat → List Char → List Char → Reading String
  | 0, _, s => .error ⟨⟨some "multiline basic string", [], none⟩, s.length, true⟩
  | fuel + 1, read, s =>
    let unclosed (s : List Char) : Reading String :=
      .error ⟨⟨some "multiline basic string", [], none⟩, s.length, true⟩
    match s with
    | '"' :: _ =>
      let n := quoteRun '"' s
      let rest := s.drop n
      if 3 ≤ n then
        let extra := min (n - 3) 2
        .ok (String.ofList (List.replicate extra '"' ++ read).reverse, s.drop (extra + 3))
      else
        match rest with
        | [] => unclosed s
        | c :: _ =>
          if inBasic c || c == '\\' || (lineBreak? rest).isSome then
            longBasicRest fuel (List.replicate n '"' ++ read) rest
          else unclosed rest
    | '\\' :: r =>
      match joinedLine? r with
      | some r => longBasicRest fuel read r
      | none =>
        match r with
        | [] => unclosed s
        | _ =>
          match escaped r with
          | .ok (c, r) => longBasicRest fuel (c :: read) r
          | .error f => .error f
    | c :: r =>
      if inBasic c then longBasicRest fuel (c :: read) r
      else
        match lineBreak? s with
        | some r => longBasicRest fuel ('\n' :: read) r
        | none => unclosed s
    | [] => unclosed s

/-- The rest of a text between threefold single quotes. -/
def longLiteralRest : Nat → List Char → List Char → Reading String
  | 0, _, s => .error ⟨⟨some "multiline literal string", [], none⟩, s.length, true⟩
  | fuel + 1, read, s =>
    let unclosed (s : List Char) : Reading String :=
      .error ⟨⟨some "multiline literal string", [], none⟩, s.length, true⟩
    match s with
    | '\'' :: _ =>
      let n := quoteRun '\'' s
      let rest := s.drop n
      if 3 ≤ n then
        let extra := min (n - 3) 2
        .ok (String.ofList (List.replicate extra '\'' ++ read).reverse, s.drop (extra + 3))
      else
        match rest with
        | [] => unclosed s
        | c :: _ =>
          if inLiteral c || (lineBreak? rest).isSome then
            longLiteralRest fuel (List.replicate n '\'' ++ read) rest
          else unclosed s
    | c :: r =>
      if inLiteral c then longLiteralRest fuel (c :: read) r
      else
        match lineBreak? s with
        | some r => longLiteralRest fuel ('\n' :: read) r
        | none => unclosed s
    | [] => unclosed s

/-- A text between single quotes on one line. -/
def literalText (s : List Char) : Reading String :=
  let inside := s.takeWhile inLiteral
  match s.dropWhile inLiteral with
  | '\'' :: r => .ok (String.ofList inside, r)
  | rest => .error ⟨⟨some "literal string", [], none⟩, rest.length, true⟩

/-- Drops a line break at the beginning. -/
def dropLineBreak (s : List Char) : List Char := (lineBreak? s).getD s

/-- A text on one line, as it may also stand for a key. -/
def shortText : List Char → Reading String
  | '"' :: r => basicRest (r.length + 1) [] r
  | '\'' :: r => literalText r
  | s => .error (.before s .nothing)

/-- A text in any notation. -/
def anyText : List Char → Reading String
  | '"' :: '"' :: '"' :: r => let r := dropLineBreak r; longBasicRest (r.length + 1) [] r
  | '\'' :: '\'' :: '\'' :: r => let r := dropLineBreak r; longLiteralRest (r.length + 1) [] r
  | s => shortText s

/-! ## Numbers -/

/-- The digits of a group and of further groups, each behind a low line. -/
def digitGroups (ok : Char → Bool) : List Char → Reading (List Char)
  | '_' :: c :: r =>
    if ok c then
      match digitGroups ok r with
      | .ok (ds, rest) => .ok (c :: ds, rest)
      | .error f => .error f
    else .error (.expecting (c :: r) ["digit"])
  | ['_'] => .error (.expecting [] ["digit"])
  | c :: r =>
    if ok c then
      match digitGroups ok r with
      | .ok (ds, rest) => .ok (c :: ds, rest)
      | .error f => .error f
    else .ok ([], c :: r)
  | [] => .ok ([], [])

/-- At least one digit, zeros in front allowed. -/
def digitsFrom (ok : Char → Bool) : List Char → Reading (List Char)
  | c :: r =>
    if ok c then
      match digitGroups ok r with
      | .ok (ds, rest) => .ok (c :: ds, rest)
      | .error f => .error f
    else .error (.before (c :: r) .nothing)
  | [] => .error (.before [] .nothing)

/-- A sign, if there is one. -/
def signed : List Char → Option Bool × List Char
  | '+' :: r => (some false, r)
  | '-' :: r => (some true, r)
  | s => (none, s)

/-- A whole number in base ten, without zeros in front: whether it is negative, and its digits. -/
def wholeDigits (s : List Char) : Reading (Bool × List Char) :=
  Reading.about "integer" <|
    let (sign, s) := signed s
    match s with
    | '0' :: r => .ok ((sign.getD false, ['0']), r)
    | s =>
      match digitsFrom Char.isDigit s with
      | .ok (ds, rest) => .ok ((sign.getD false, ds), rest)
      | .error f => .error f

/-- A whole number behind the mark of its base. -/
def basedWhole (base : Nat) (ok : Char → Bool) (subject : String) (start s : List Char) :
    Reading Value :=
  match ((digitsFrom ok s).decided).about subject with
  | .error f => .error f
  | .ok (ds, rest) =>
    let n := natInBase base ds
    if n < Nat.pow 2 63 then .ok (.whole n, rest)
    else .error { Fault.breaking start .tooLarge with final := true }

/-- A whole number of 64 bits. -/
def whole : List Char → Reading Value
  | '0' :: 'x' :: r => basedWhole 16 isHex "hexadecimal integer" ('0' :: 'x' :: r) r
  | '0' :: 'o' :: r =>
    basedWhole 8 (fun c => '0' ≤ c && c ≤ '7') "octal integer" ('0' :: 'o' :: r) r
  | '0' :: 'b' :: r =>
    basedWhole 2 (fun c => c == '0' || c == '1') "binary integer" ('0' :: 'b' :: r) r
  | s =>
    match wholeDigits s with
    | .error f => .error f
    | .ok ((negative, ds), rest) =>
      let n := natInBase 10 ds
      if negative then
        if n ≤ Nat.pow 2 63 then .ok (.whole (-n), rest)
        else .error { Fault.breaking s .tooSmall with final := true }
      else if n < Nat.pow 2 63 then .ok (.whole n, rest)
      else .error { Fault.breaking s .tooLarge with final := true }

/-- The exponent of a double: its characters without low lines. -/
def exponentPart : List Char → Reading (List Char)
  | c :: r =>
    if c == 'e' || c == 'E' then
      let (sign, s) := signed r
      match (digitsFrom Char.isDigit s).decided with
      | .ok (ds, rest) => .ok ('e' :: (if sign == some true then '-' :: ds else ds), rest)
      | .error f => .error f
    else .error (.before (c :: r) .nothing)
  | [] => .error (.before [] .nothing)

/-- The digits behind a point. -/
def fractionPart : List Char → Reading (List Char)
  | '.' :: r =>
    match ((digitsFrom Char.isDigit r).decided).hinting ["digit"] with
    | .ok (ds, rest) => .ok ('.' :: ds, rest)
    | .error f => .error f
  | s => .error (.before s .nothing)

/-- What makes a number a double: an exponent, or a fraction that may be followed by one. -/
def doubleTail (s : List Char) : Reading (List Char) :=
  (exponentPart s).orElse fun _ =>
    match fractionPart s with
    | .error f => .error f
    | .ok (fraction, rest) =>
      match Reading.optional rest (exponentPart rest) with
      | .error f => .error f
      | .ok (e, rest) => .ok (fraction ++ e.getD [], rest)

/-- A double in digits.  One that is too large is infinite if it is negative, else a fault. -/
def digitDouble (s : List Char) : Reading Value :=
  match wholeDigits s with
  | .error f => .error f
  | .ok ((negative, ds), rest) =>
    match doubleTail rest with
    | .error f => .error f
    | .ok (tail, rest) =>
      match Binary.double.ofText? ((if negative then ['-'] else []) ++ ds ++ tail) with
      | some x => .ok (.real (.finite x), rest)
      | none =>
        if negative then .ok (.real (.infinite true), rest)
        else .error { Fault.before s .nothing with final := true }

/-- The words for the doubles without digits. -/
def wordDouble (s : List Char) : Reading Value :=
  let (sign, rest) := signed s
  match rest with
  | 'i' :: 'n' :: 'f' :: r => .ok (.real (.infinite (sign.getD false)), r)
  | 'n' :: 'a' :: 'n' :: r => .ok (.real (.notANumber (sign.getD false)), r)
  | rest => .error (.before rest .nothing)

def double (s : List Char) : Reading Value :=
  Reading.about "floating-point number" ((digitDouble s).orElse fun _ => wordDouble s)

/-! ## Points in time -/

/-- A number of exactly so many digits. -/
def fixedDigits (count : Nat) (s : List Char) : Reading Nat :=
  let ds := s.take count
  if ds.length = count && ds.all Char.isDigit then .ok (Binary.Decimal.natOfDigits ds, s.drop count)
  else .error (.before s .nothing)

/-- A number of two digits between bounds. -/
def twoDigits (low high : Nat) (s : List Char) : Reading Nat :=
  match fixedDigits 2 s with
  | .error f => .error f
  | .ok (n, rest) => if low ≤ n ∧ n ≤ high then .ok (n, rest) else .error (.breaking s .outOfRange)

def mark (c : Char) : List Char → Reading Unit
  | d :: r => if d == c then .ok ((), r) else .error (.before (d :: r) .nothing)
  | [] => .error (.before [] .nothing)

def daysOfMonth (year month : Nat) : Nat :=
  if month = 2 then
    if year % 4 = 0 ∧ (year % 100 ≠ 0 ∨ year % 400 = 0) then 29 else 28
  else if month = 4 ∨ month = 6 ∨ month = 9 ∨ month = 11 then 30 else 31

/-- The month and the day behind a year, in normal form. -/
def monthAndDay (year : Nat) (s : List Char) : Except Fault (String × List Char) := do
  let (month, s) ← twoDigits 1 12 s
  let ((), s) ← mark '-' s
  let (d, rest) ← twoDigits 1 31 s
  if daysOfMonth year month < d then .error (.breaking s .outOfRange)
  else .ok (padded 2 month ++ "-" ++ padded 2 d, rest)

/-- A day: year, month and day, in normal form. -/
def day (s : List Char) : Except Fault (String × List Char) := do
  let (year, s) ← fixedDigits 4 s
  let ((), s) ← mark '-' s
  let (rest, s) ← Reading.decided (monthAndDay year s)
  .ok (padded 4 year ++ "-" ++ rest, s)

/-- The digits of the part of a second, nine at most and without zeros at the end. -/
def secondPart : List Char → Reading String
  | '.' :: r =>
    let ds := r.takeWhile Char.isDigit
    if ds.isEmpty then .error (.before r .nothing)
    else
      let kept := ((ds.take 9).reverse.dropWhile (· == '0')).reverse
      .ok (if kept.isEmpty then "" else "." ++ String.ofList kept, r.dropWhile Char.isDigit)
  | s => .error (.before s .nothing)

/-- The minutes and seconds behind an hour, in normal form. -/
def minutesAndSeconds (s : List Char) : Except Fault (String × List Char) := do
  let (minute, s) ← twoDigits 0 59 s
  let ((), s) ← mark ':' s
  let (second, s) ← twoDigits 0 60 s
  let (part, s) ← Reading.optional s (secondPart s)
  .ok (padded 2 minute ++ ":" ++ padded 2 second ++ part.getD "", s)

/-- A time of day in normal form. -/
def timeOfDay (s : List Char) : Except Fault (String × List Char) := do
  let (hour, s) ← twoDigits 0 23 s
  let ((), s) ← mark ':' s
  let (rest, s) ← Reading.decided (minutesAndSeconds s)
  .ok (padded 2 hour ++ ":" ++ rest, s)

/-- Hours and minutes behind a sign, in normal form; no distance has a plus sign. -/
def hoursAndMinutes (negative : Bool) (s : List Char) : Except Fault (String × List Char) := do
  let (hour, s) ← twoDigits 0 23 s
  let ((), s) ← mark ':' s
  let (minute, s) ← twoDigits 0 59 s
  let sign := if negative && 0 < hour * 60 + minute then "-" else "+"
  .ok (sign ++ padded 2 hour ++ ":" ++ padded 2 minute, s)

/-- A distance from universal time in normal form. -/
def timeOffset (s : List Char) : Reading String :=
  Reading.about "time offset" <|
    match s with
    | 'Z' :: r => .ok ("Z", r)
    | 'z' :: r => .ok ("Z", r)
    | '+' :: r => Reading.decided (hoursAndMinutes false r)
    | '-' :: r => Reading.decided (hoursAndMinutes true r)
    | s => .error (.before s .nothing)

/-- The mark between a day and a time. -/
def timeMark : List Char → Reading Unit
  | c :: r =>
    if c == 'T' || c == 't' || c == ' ' then .ok ((), r) else .error (.before (c :: r) .nothing)
  | [] => .error (.before [] .nothing)

/-- The time behind a day: a mark, the time, and a distance if there is one. -/
def timeOfMoment (s : List Char) : Except Fault (String × List Char) := do
  let ((), s) ← timeMark s
  let (time, s) ← timeOfDay s
  let (offset, s) ← Reading.optional s (timeOffset s)
  .ok ("T" ++ time ++ offset.getD "", s)

/-- A day, with a time or without. -/
def dayWithTime (s : List Char) : Except Fault (Value × List Char) := do
  let (d, s) ← day s
  let (time, s) ← Reading.optional s (timeOfMoment s)
  .ok (.moment (d ++ time.getD ""), s)

/-- A point in time: a day, with a time or without, or a time alone. -/
def moment (s : List Char) : Reading Value :=
  (Reading.about "date-time" (dayWithTime s)).orElse fun _ =>
    Reading.about "time" ((timeOfDay s).map fun (time, s) => (.moment time, s))

/-- A number or a point in time. -/
def numeral (s : List Char) : Reading Value :=
  (moment s).orElse fun _ => (double s).orElse fun _ => whole s

/-! ## Scalars -/

/-- A word that must stand as a whole. -/
def word (w : List Char) (v : Value) (s : List Char) : Reading Value :=
  if s.take w.length == w then .ok (v, s.drop w.length) else .error (.before s .nothing)

/-- A value that is neither a list nor a table. -/
def scalar : List Char → Reading Value
  | [] => .error (.before [] .nothing)
  | c :: r =>
    let s := c :: r
    if c == '"' || c == '\'' then
      match anyText s with
      | .ok (t, rest) => .ok (.text t, rest)
      | .error f => .error f
    else if c == '+' || c == '-' || c.isDigit then numeral s
    else if c == '_' then (whole s).hinting ["leading digit"]
    else if c == '.' then (double s).hinting ["leading digit"]
    else if c == 't' then
      ((word ['t', 'r', 'u', 'e'] (.flag true) s).decided.about "boolean").hinting
        ["\x60true\x60", "\x60false\x60"]
    else if c == 'f' then
      ((word ['f', 'a', 'l', 's', 'e'] (.flag false) s).decided.about "boolean").hinting
        ["\x60true\x60", "\x60false\x60"]
    else if c == 'i' then
      ((word ['i', 'n', 'f'] (.real (.infinite false)) s).about "floating-point number").hinting
        ["\x60inf\x60"]
    else if c == 'n' then
      ((word ['n', 'a', 'n'] (.real (.notANumber false)) s).about "floating-point number").hinting
        ["\x60nan\x60"]
    else .error (.before s ⟨some "string", ["\x60\"\x60", "\x60'\x60"], none⟩)

end ApiCanon.Toml
