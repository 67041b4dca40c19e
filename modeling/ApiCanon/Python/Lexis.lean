import ApiCanon.Syntax.Token

/-!
# Tokens of Python

Literals stand between single or triple quotes, with letters in front that change their meaning;
a formatted literal has holes between braces, in which there may be further literals.  A backslash
joins lines.

Main statements: the words that are no names, and the value of a literal, which is the text between
its quotes as it stands.
-/

namespace ApiCanon.Python

open Syntax

/-! ## Literals -/

/-- How a literal ends, and whether it has holes. -/
structure Quote where
  delimiter : List Char
  formatted : Bool

def Quote.isTriple (q : Quote) : Bool := q.delimiter.length == 3

/-- A letter that may stand in front of a literal. -/
def isPrefixLetter (c : Char) : Bool := "rRbBuUfF".toList.contains c

/-- The opening of a literal: the letters in front with the quotes, how it ends, and the rest. -/
def opening? (s : List Char) : Option (List Char × Quote × List Char) :=
  let letters := s.takeWhile isPrefixLetter
  let quoted (d r : List Char) : List Char × Quote × List Char :=
    (letters ++ d, ⟨d, letters.contains 'f' || letters.contains 'F'⟩, r)
  match s.dropWhile isPrefixLetter with
  | '"' :: '"' :: '"' :: r => some (quoted ['"', '"', '"'] r)
  | '\'' :: '\'' :: '\'' :: r => some (quoted ['\'', '\'', '\''] r)
  | '"' :: r => some (quoted ['"'] r)
  | '\'' :: r => some (quoted ['\''] r)
  | _ => none

mutual

/-- Splits the rest of a literal off, its end included. -/
def splitText : Nat → Quote → List Char → Option (List Char × List Char)
  | 0, _, _ => none
  | n + 1, q, s =>
    match Text.stripPrefix? q.delimiter s with
    | some r => some (q.delimiter, r)
    | none =>
      match s with
      | [] => none
      | '\\' :: c :: r => (splitText n q r).map (behind ['\\', c])
      | '\x7b' :: '\x7b' :: r =>
        if q.formatted then (splitText n q r).map (behind ['\x7b', '\x7b'])
        else (splitText n q ('\x7b' :: r)).map (behind ['\x7b'])
      | c :: r =>
        if c == '\x7b' && q.formatted then
          match splitHole n 0 false r with
          | some (a, rest) => (splitText n q rest).map (behind (c :: a))
          | none => none
        else if c == '\n' && !q.isTriple then none
        else (splitText n q r).map (behind [c])

/-- Splits the rest of a hole off, its closing brace included.  `depth` counts open brackets; the
format behind a colon is no expression. -/
def splitHole : Nat → Nat → Bool → List Char → Option (List Char × List Char)
  | 0, _, _, _ => none
  | n + 1, depth, format, s =>
    if format then
      match s with
      | [] => none
      | '\x7d' :: r => some (['\x7d'], r)
      | '\x7b' :: r =>
        match splitHole n 0 false r with
        | some (a, rest) => (splitHole n depth true rest).map (behind ('\x7b' :: a))
        | none => none
      | c :: r => (splitHole n depth true r).map (behind [c])
    else
      match opening? s with
      | some (a, q, r) =>
        match splitText n q r with
        | some (b, rest) => (splitHole n depth false rest).map (behind (a ++ b))
        | none => none
      | none =>
        match s with
        | [] => none
        | c :: r =>
          if c == '\x7d' && depth == 0 then some ([c], r)
          else
            let depth :=
              if "([\x7b".toList.contains c then depth + 1
              else if ")]\x7d".toList.contains c then depth - 1
              else depth
            (splitHole n depth (c == ':' && depth == 0) r).map (behind [c])

end

/-- A literal. -/
def splitLiteral : Splitter := fun s => do
  let (a, q, r) ← opening? s
  (splitText (r.length + 1) q r).map (behind a)

/-- The text between the quotes of a literal. -/
def literalValue? (literal : String) : Option String :=
  let s := literal.toList.dropWhile isPrefixLetter
  (["\"\"\"", "\x27\x27\x27", "\"", "\x27"].findSome? fun quote =>
    (Text.stripPrefix? quote.toList s).bind (Text.stripSuffix? quote.toList)).map String.ofList

/-! ## Other tokens -/

open Splitter in
/-- A number: a whole one in one of four bases, or one with a point or an exponent.  A letter behind
it marks long and imaginary numbers. -/
def splitNumber : Splitter :=
  let decimals := (digits 10).followedBy (oneOf "_").perhaps
  let exponent := exponent "eE" decimals
  let based := firstOf [inBase "xX" 16, inBase "oO" 8, inBase "bB" 2]
  let broken := firstOf [
    decimals.followedBy ((oneOf ".").followedBy (decimals.perhaps.followedBy exponent.perhaps)),
    (oneOf ".").followedBy (decimals.followedBy exponent.perhaps),
    decimals.followedBy exponent]
  firstOf [
    based.followedBy (oneOf "lL").perhaps,
    broken.followedBy (oneOf "jJ").perhaps,
    decimals.followedBy (oneOf "lLjJ").perhaps]

def splitComment : Splitter
  | '#' :: r => some ('#' :: r.takeWhile (· != '\n'), r.dropWhile (· != '\n'))
  | _ => none

def lexis : Lexis where
  comment? := splitComment
  literal? := splitLiteral
  number? := splitNumber
  marks :=
    ["**=", "//=", ">>=", "<<=", "...", "->", ":=", "==", "!=", "<=", ">=", "<>", "**", "//",
      "<<", ">>", "+=", "-=", "*=", "/=", "%=", "@=", "&=", "|=", "^=", "+", "-", "*", "/", "%",
      "@", "&", "|", "^", "~", "<", ">", "(", ")", "[", "]", "\x7b", "\x7d", ",", ":", ".", ";",
      "="]
  joinsLines := true

/-- The words that cannot be names. -/
def reservedWords : List String :=
  ["False", "None", "True", "and", "as", "assert", "break", "class", "continue", "def", "del",
    "elif", "else", "except", "finally", "for", "from", "global", "if", "import", "in", "is",
    "lambda", "nonlocal", "not", "or", "pass", "raise", "return", "try", "while", "with", "yield"]

end ApiCanon.Python
