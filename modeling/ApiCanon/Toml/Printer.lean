import ApiCanon.Json.Value

/-!
# Writing TOML

A JSON object is written as a document: first the fields that stand on a line of their own, then
a section for every object and for every object of a list of objects, each under its full path.
A section that would hold nothing but further sections is left out.  Sections are parted by an
empty line.

A list of two or more items is written with one item on a line.  TOML has no null, so that an
object with a null in it cannot be written.

## Texts

A text is written in the first of these notations that needs no escapes: between double quotes,
between single quotes, between threefold double quotes, between threefold single quotes.  If
none will do it stands between double quotes, threefold if it has several lines, with escapes.
-/

namespace ApiCanon.Toml

open Json (Fields)

/-! ## Texts -/

/-- The length of the longest run of a character. -/
def longestRun (c : Char) (current : Nat) : List Char → Nat
  | [] => current
  | d :: r => if d == c then longestRun c (current + 1) r else max current (longestRun c 0 r)

/-- Controls that must be escaped everywhere. -/
def isControl (c : Char) : Bool :=
  (c.toNat < 32 && c != '\t' && c != '\n') || c.toNat == 127

/-- The hexadecimal number of a control, in four digits. -/
def controlNumber (c : Char) : List Char :=
  let ds := (Nat.toDigits 16 c.toNat).map Char.toUpper
  List.replicate (4 - ds.length) '0' ++ ds

/-- A text with its escapes.  `quotes` counts the quotes in front; up to `quotesKept` in a row
stay as they are. -/
def escapedChars (long : Bool) (quotesKept quotes : Nat) : List Char → List Char
  | [] => []
  | c :: r =>
    if c == '"' then
      if quotes < quotesKept then c :: escapedChars long quotesKept (quotes + 1) r
      else '\\' :: c :: escapedChars long quotesKept 0 r
    else
      let shown :=
        if c.toNat == 8 then ['\\', 'b']
        else if c == '\t' then ['\\', 't']
        else if c == '\n' then (if long then ['\n'] else ['\\', 'n'])
        else if c.toNat == 12 then ['\\', 'f']
        else if c == '\r' then ['\\', 'r']
        else if c == '\\' then ['\\', '\\']
        else if c.toNat < 32 || c.toNat == 127 then '\\' :: 'u' :: controlNumber c
        else [c]
      shown ++ escapedChars long quotesKept 0 r

/-- A text between threefold quotes; one with several lines begins on a line of its own. -/
def longText (quote : Char) (severalLines : Bool) (inside : List Char) : List Char :=
  List.replicate 3 quote ++ (if severalLines then ['\n'] else []) ++ inside ++
    List.replicate 3 quote

/-- A text in quotes. -/
def quoteText (s : String) : List Char :=
  let cs := s.toList
  let controls := cs.any isControl
  let backslash := cs.contains '\\'
  let lines := cs.contains '\n'
  let double := longestRun '"' 0 cs
  let single := longestRun '\'' 0 cs
  if !controls && !backslash && double = 0 && !lines then
    '"' :: escapedChars false 0 0 cs ++ ['"']
  else if !controls && single = 0 && !lines then '\'' :: cs ++ ['\'']
  else if !controls && !backslash && double ≤ 2 then
    longText '"' lines (escapedChars true 2 0 cs)
  else if !controls && single ≤ 2 then longText '\'' lines cs
  else if lines then longText '"' lines (escapedChars true 2 0 cs)
  else '"' :: escapedChars false 0 0 cs ++ ['"']

/-- A key, in quotes unless it consists of letters, digits, low lines and hyphens. -/
def keyText (k : String) : List Char :=
  let cs := k.toList
  if !cs.isEmpty && cs.all fun c => c.isAlphanum || c == '_' || c == '-' then cs
  else
    let controls := cs.any fun c => isControl c || c == '\n'
    if !controls && !cs.contains '\\' && !cs.contains '"' then
      '"' :: escapedChars false 0 0 cs ++ ['"']
    else if !controls && !cs.contains '\'' then '\'' :: cs ++ ['\'']
    else '"' :: escapedChars false 0 0 cs ++ ['"']

/-! ## Values on a line -/

/-- The text of a number; a double always has a fraction, and no exponent. -/
def numberText : Json.Number → String
  | .int i => toString i
  | .float x => Binary.signText x.negative ++ (Binary.double.shortest x).positional ".0"

mutual
/-- A value behind a key or in a list, unless there is a null in it. -/
def valueText? : Json.Value → Option (List Char)
  | .null => none
  | .bool b => some (if b then ['t', 'r', 'u', 'e'] else ['f', 'a', 'l', 's', 'e'])
  | .number n => some (numberText n).toList
  | .string s => some (quoteText s)
  | .array [] => some ['[', ']']
  | .array [v] => (valueText? v).map fun t => '[' :: t ++ [']']
  | .array (v :: w :: r) => do
    let t ← valueText? v
    let u ← valueText? w
    let ts ← itemTexts? r
    let line (t : List Char) : List Char := '\n' :: ' ' :: ' ' :: ' ' :: ' ' :: t ++ [',']
    some ('[' :: (t :: u :: ts).flatMap line ++ ['\n', ']'])
  | .object [] => some ['\x7b', '\x7d']
  | .object (p :: f) => do
    let ts ← fieldTexts? (p :: f)
    some ('\x7b' :: ' ' :: (List.intercalate [',', ' '] ts) ++ [' ', '\x7d'])

def itemTexts? : List Json.Value → Option (List (List Char))
  | [] => some []
  | v :: r => do
    let t ← valueText? v
    let ts ← itemTexts? r
    some (t :: ts)

def fieldTexts? : List (String × Json.Value) → Option (List (List Char))
  | [] => some []
  | (k, v) :: r => do
    let t ← valueText? v
    let ts ← fieldTexts? r
    some ((keyText k ++ ' ' :: '=' :: ' ' :: t) :: ts)
end

/-! ## Sections -/

def isObject : Json.Value → Bool
  | .object _ => true
  | _ => false

/-- A list of objects, which gets a section for each of them. -/
def isObjectList : Json.Value → Bool
  | .array [] => false
  | .array l => l.all isObject
  | _ => false

/-- Whether a field has sections of its own. -/
def hasSections (v : Json.Value) : Bool := isObject v || isObjectList v

/-- The path of a section as a header shows it. -/
def headerText (path : List String) (element : Bool) : List Char :=
  let inside := List.intercalate ['.'] (path.map keyText)
  if element then '[' :: '[' :: inside ++ [']', ']', '\n'] else '[' :: inside ++ [']', '\n']

/-- The fields of a section that stand on lines of their own. -/
def bodyText? (f : Fields) : Option (List Char) :=
  (f.mapM fun (k, v) =>
    if hasSections v then some []
    else (valueText? v).map fun t => keyText k ++ ' ' :: '=' :: ' ' :: t ++ ['\n']).map List.flatten

/-- The section of a table itself, if it is to be seen. -/
def ownSection? (path : List String) (element : Bool) (f : Fields) : Option (List (List Char)) :=
  (bodyText? f).map fun body =>
    if path.isEmpty then (if body.isEmpty then [] else [body])
    else if element || !body.isEmpty || !f.any (fun (_, v) => hasSections v) then
      [headerText path element ++ body]
    else []

mutual
/-- The sections of a value under its path: none if it stands on a line. -/
def sections? (path : List String) (element : Bool) : Json.Value → Option (List (List Char))
  | .object f => do
    let own ← ownSection? path element f
    let inner ← fieldSections? path f
    some (own ++ inner)
  | .array l => if isObjectList (.array l) then elementSections? path l else some []
  | _ => some []

def fieldSections? (path : List String) : List (String × Json.Value) → Option (List (List Char))
  | [] => some []
  | (k, v) :: r => do
    let own ← sections? (path ++ [k]) false v
    let rest ← fieldSections? path r
    some (own ++ rest)

def elementSections? (path : List String) : List Json.Value → Option (List (List Char))
  | [] => some []
  | v :: r => do
    let own ← sections? path true v
    let rest ← elementSections? path r
    some (own ++ rest)
end

/-- The document of an object, unless there is a null in it. -/
def render? (v : Json.Value) : Option String :=
  (sections? [] false v).map fun l => String.ofList (List.intercalate ['\n'] l)

end ApiCanon.Toml
