import ApiCanon.Json.Value
import ApiCanon.Text.Bytes

/-!
# Writing JSON

Two layouts: `compact` without any blank, and `pretty` with an indentation of two blanks, one
field or item on a line, and nothing between the brackets of an empty list or object.  In a text
the quote, the backslash and the controls are escaped, the usual five controls by a letter.
-/

namespace ApiCanon.Json

/-- How a character is written inside quotes. -/
def escapeChar (c : Char) : List Char :=
  if c == '"' then ['\\', '"']
  else if c == '\\' then ['\\', '\\']
  else if c == '\n' then ['\\', 'n']
  else if c == '\r' then ['\\', 'r']
  else if c == '\t' then ['\\', 't']
  else if c.toNat == 8 then ['\\', 'b']
  else if c.toNat == 12 then ['\\', 'f']
  else if c.toNat < 32 then
    ['\\', 'u', '0', '0', Bytes.hexDigit (c.toNat / 16), Bytes.hexDigit (c.toNat % 16)]
  else [c]

/-- A text between quotes. -/
def quoteChars (s : List Char) : List Char := '"' :: s.flatMap escapeChar ++ ['"']

def quoted (s : String) : String := String.ofList (quoteChars s.toList)

/-! ## Without blanks -/

mutual
def compactChars : Value → List Char
  | .null => ['n', 'u', 'l', 'l']
  | .bool b => if b then ['t', 'r', 'u', 'e'] else ['f', 'a', 'l', 's', 'e']
  | .number n => n.text.toList
  | .string s => quoteChars s.toList
  | .array a => '[' :: compactItems a ++ [']']
  | .object f => '\x7b' :: compactFields f ++ ['\x7d']

def compactItems : List Value → List Char
  | [] => []
  | [v] => compactChars v
  | v :: r => compactChars v ++ ',' :: compactItems r

def compactFields : List (String × Value) → List Char
  | [] => []
  | [(k, v)] => quoteChars k.toList ++ ':' :: compactChars v
  | (k, v) :: r => quoteChars k.toList ++ ':' :: compactChars v ++ ',' :: compactFields r
end

/-- The text of a value without blanks. -/
def Value.compact (v : Value) : String := String.ofList (compactChars v)

/-- The text of a value with sorted keys, by which equal documents have equal texts. -/
def Value.canonicalText (v : Value) : String := v.canonicalize.compact

/-! ## Indented -/

/-- A line break and the blanks of a depth. -/
def newline (depth : Nat) : List Char := '\n' :: List.replicate (2 * depth) ' '

mutual
def prettyChars (depth : Nat) : Value → List Char
  | .array [] => ['[', ']']
  | .array a => '[' :: prettyItems (depth + 1) a ++ newline depth ++ [']']
  | .object [] => ['\x7b', '\x7d']
  | .object f => '\x7b' :: prettyFields (depth + 1) f ++ newline depth ++ ['\x7d']
  | .null => ['n', 'u', 'l', 'l']
  | .bool b => if b then ['t', 'r', 'u', 'e'] else ['f', 'a', 'l', 's', 'e']
  | .number n => n.text.toList
  | .string s => quoteChars s.toList

def prettyItems (depth : Nat) : List Value → List Char
  | [] => []
  | [v] => newline depth ++ prettyChars depth v
  | v :: r => newline depth ++ prettyChars depth v ++ ',' :: prettyItems depth r

def prettyFields (depth : Nat) : List (String × Value) → List Char
  | [] => []
  | [(k, v)] => newline depth ++ quoteChars k.toList ++ ':' :: ' ' :: prettyChars depth v
  | (k, v) :: r =>
    newline depth ++ quoteChars k.toList ++ ':' :: ' ' :: prettyChars depth v ++
      ',' :: prettyFields depth r
end

/-- The indented text of a value. -/
def Value.pretty (v : Value) : String := String.ofList (prettyChars 0 v)

end ApiCanon.Json
