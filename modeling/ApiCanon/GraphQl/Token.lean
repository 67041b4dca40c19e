import ApiCanon.Source.Issue
import ApiCanon.Text.Blank
import ApiCanon.Text.Bytes
import ApiCanon.Text.Search

/-!
# Tokens of the schema language

Names, texts, numbers and punctuation, each with its line.  Blanks, commas and comments separate
tokens and are dropped.

## Texts

A text stands between quotes on one line, with escapes, or between triple quotes over any number
of lines.  Of the latter, the indentation common to all lines but the first is taken off, and so
are the blank edges.
-/

namespace ApiCanon.GraphQl

/-- A token without its place. -/
inductive Lexeme where
  | name (s : String)
  | text (s : String)
  /-- Numbers are only ever skipped. -/
  | number (s : String)
  | punct (c : Char)
  | spread
  deriving DecidableEq, Repr, Inhabited

/-- A token and its line. -/
structure Token where
  lexeme : Lexeme
  line : Nat
  deriving DecidableEq, Repr, Inhabited

/-- Why a text is not a sequence of tokens. -/
inductive LexicalFault where
  | unterminatedString
  | unexpectedCharacter (c : Char)
  deriving DecidableEq, Repr

def LexicalFault.message : LexicalFault → String
  | unterminatedString => "Unterminated string"
  | unexpectedCharacter c => "Unexpected character '" ++ String.singleton c ++ "'"

/-! ## Texts on one line -/

/-- The number that four characters stand for: hexadecimal digits, the first of which may be a
plus sign. -/
def code? (a b c d : Char) : Option Nat := do
  let a ← if a = '+' then some 0 else Bytes.hexValue? a
  let b ← Bytes.hexValue? b
  let c ← Bytes.hexValue? c
  let d ← Bytes.hexValue? d
  pure (((a * 16 + b) * 16 + c) * 16 + d)

/-- The character of four digits; half a surrogate pair is none. -/
def charOfCode? (a b c d : Char) : Option Char :=
  match code? a b c d with
  | some n => if 0xD800 ≤ n ∧ n ≤ 0xDFFF then none else some (Char.ofNat n)
  | none => none

/-- What a character stands for behind a backslash. -/
def unescape (c : Char) : Char :=
  match c with
  | 'n' => '\n'
  | 't' => '\t'
  | 'r' => '\r'
  | c => c

/-- Puts a character before what was read. -/
def consRead (c : Char) : Option (List Char × List Char) → Option (List Char × List Char)
  | some (t, r) => some (c :: t, r)
  | none => none

/-- Reads a text behind its opening quote: its value and what follows it. -/
def readQuoted : List Char → Option (List Char × List Char)
  | [] => none
  | '"' :: r => some ([], r)
  | '\n' :: _ => none
  | '\\' :: 'u' :: a :: b :: c :: d :: r =>
    match charOfCode? a b c d with
    | some x => consRead x (readQuoted r)
    | none => none
  | '\\' :: 'u' :: _ => none
  | '\\' :: c :: r => consRead (unescape c) (readQuoted r)
  | ['\\'] => none
  | c :: r => consRead c (readQuoted r)

/-! ## Texts on several lines -/

/-- Reads up to the next three quotes. -/
def readBlock : List Char → Option (List Char × List Char)
  | '"' :: '"' :: '"' :: r => some ([], r)
  | c :: r => consRead c (readBlock r)
  | [] => none

/-- What follows the first `n` bytes of a text; none if a character lies across. -/
def dropBytes? : Nat → List Char → Option (List Char)
  | 0, s => some s
  | _ + 1, [] => none
  | n + 1, c :: r => if c.utf8Size ≤ n + 1 then dropBytes? (n + 1 - c.utf8Size) r else none
termination_by _ s => s.length

/-- The number of bytes of the blanks in front of a line. -/
def indentation (line : List Char) : Nat := utf8Length (line.takeWhile Text.isBlank)

/-- The indentation common to the lines that are not blank. -/
def commonIndentation (lines : List (List Char)) : Nat :=
  (((lines.filter fun l => !Text.allBlank l).map indentation).min?).getD 0

/-- A line after the first, without the common indentation and the blanks at its end. -/
def dedentLine (indent : Nat) (line : List Char) : List Char :=
  Text.trimRight ((dropBytes? indent line).getD (Text.trimLeft line))

/-- The value of a text on several lines. -/
def dedent (raw : List Char) : List Char :=
  let lines := Text.lines raw
  let indent := commonIndentation lines.tail
  let dedented := match lines with
    | [] => []
    | first :: rest => Text.trim first :: rest.map (dedentLine indent)
  Text.trim (['\n'].intercalate dedented)

/-- The value of what stands between triple quotes; a quoted triple quote is a triple quote. -/
def blockValue (raw : List Char) : List Char :=
  dedent (Text.replaceAll ['\\', '"', '"', '"'] ['"', '"', '"'] raw)

/-! ## Tokens -/

def isNameStart (c : Char) : Bool := c.isAlpha || c == '_'

def isNameChar (c : Char) : Bool := c.isAlphanum || c == '_'

def isNumberStart (c : Char) : Bool := c.isDigit || c == '-'

def isNumberChar (c : Char) : Bool := c.isAlphanum || c == '.' || c == '+' || c == '-'

/-- What separates tokens without ending a line. -/
def isSeparator (c : Char) : Bool := Text.isBlank c || c == ',' || c == '\ufeff'

def punctuation : List Char :=
  ['\x7b', '\x7d', '(', ')', '[', ']', ':', '!', '=', '@', '|', '&', '$']

/-- A text that begins at its opening quote, its value, what follows, and the line of that. -/
def readText (line : Nat) : List Char → Option (List Char × List Char × Nat)
  | '"' :: '"' :: '"' :: r =>
    match readBlock r with
    | some (raw, rest) => some (blockValue raw, rest, line + raw.count '\n')
    | none => none
  | '"' :: r =>
    match readQuoted r with
    | some (t, rest) => some (t, rest, line)
    | none => none
  | _ => none

theorem length_of_readQuoted {s t r : List Char} (h : readQuoted s = some (t, r)) :
    r.length < s.length := by
  have step : ∀ {c : Char} {x : Option (List Char × List Char)} {t r : List Char},
      consRead c x = some (t, r) → ∃ t', x = some (t', r) := by
    intro c x t r h
    match x with
    | some (t', r') =>
      simp only [consRead, Option.some.injEq, Prod.mk.injEq] at h
      exact ⟨t', by simp [h.2]⟩
    | none => simp [consRead] at h
  fun_induction readQuoted s generalizing t r with
  | case1 => simp at h
  | case2 r => simp only [Option.some.injEq, Prod.mk.injEq] at h; simp [h.2]
  | case3 => simp at h
  | case4 a b c d r x hx ih =>
    obtain ⟨t', h⟩ := step h
    have := ih h; simp; omega
  | case5 => simp at h
  | case6 => simp at h
  | case7 c r _ _ ih =>
    obtain ⟨t', h⟩ := step h
    have := ih h; simp; omega
  | case8 => simp at h
  | case9 c r _ _ _ _ _ _ ih =>
    obtain ⟨t', h⟩ := step h
    have := ih h; simp; omega

theorem length_of_readBlock {s t r : List Char} (h : readBlock s = some (t, r)) :
    r.length < s.length := by
  induction s generalizing t r with
  | nil => simp [readBlock] at h
  | cons c s ih =>
    unfold readBlock at h
    split at h
    · next heq =>
      simp only [Option.some.injEq, Prod.mk.injEq] at h
      rw [heq]; simp [h.2]; omega
    · next heq =>
      simp only [List.cons.injEq] at heq
      obtain ⟨rfl, rfl⟩ := heq
      match hx : readBlock s with
      | some (t', r') =>
        rw [hx] at h
        simp only [consRead, Option.some.injEq, Prod.mk.injEq] at h
        have := ih hx
        simp [← h.2]; omega
      | none => rw [hx] at h; simp [consRead] at h
    · simp at *

theorem length_of_readText {line n : Nat} {s t r : List Char}
    (h : readText line s = some (t, r, n)) : r.length < s.length := by
  unfold readText at h
  split at h
  · next r' =>
    match hx : readBlock r' with
    | some (raw, rest) =>
      rw [hx] at h
      simp only [Option.some.injEq, Prod.mk.injEq] at h
      have := length_of_readBlock hx
      simp [← h.2.1]; omega
    | none => rw [hx] at h; simp at h
  · next r' _ =>
    match hx : readQuoted r' with
    | some (t', rest) =>
      rw [hx] at h
      simp only [Option.some.injEq, Prod.mk.injEq] at h
      have := length_of_readQuoted hx
      simp [← h.2.1]; omega
    | none => rw [hx] at h; simp at h
  · simp at h

theorem length_dropWhile_le (p : Char → Bool) (s : List Char) :
    (s.dropWhile p).length ≤ s.length :=
  (List.dropWhile_sublist p).length_le

/-- The tokens of a text of which the first character stands on the given line. -/
def tokensFrom (line : Nat) (s : List Char) : Except (LexicalFault × Nat) (List Token) :=
  match hs : s with
  | [] => .ok []
  | '\n' :: r => tokensFrom (line + 1) r
  | '#' :: r => tokensFrom line (r.dropWhile (· != '\n'))
  | '"' :: r =>
    match _ht : readText line ('"' :: r) with
    | some (t, rest, line') =>
      (tokensFrom line' rest).map (⟨.text (String.ofList t), line⟩ :: ·)
    | none => .error (.unterminatedString, line)
  | '.' :: '.' :: '.' :: r => (tokensFrom line r).map (⟨.spread, line⟩ :: ·)
  | c :: r =>
    if isSeparator c then tokensFrom line r
    else if isNameStart c then
      (tokensFrom line (r.dropWhile isNameChar)).map
        (⟨.name (String.ofList (c :: r.takeWhile isNameChar)), line⟩ :: ·)
    else if isNumberStart c then
      (tokensFrom line (r.dropWhile isNumberChar)).map
        (⟨.number (String.ofList (c :: r.takeWhile isNumberChar)), line⟩ :: ·)
    else if punctuation.contains c then (tokensFrom line r).map (⟨.punct c, line⟩ :: ·)
    else .error (.unexpectedCharacter c, line)
termination_by s.length
decreasing_by
  · simp
  · have := length_dropWhile_le (· != '\n') r; simp; omega
  · exact length_of_readText _ht
  · simp; omega
  · simp
  · have := length_dropWhile_le isNameChar r; simp; omega
  · have := length_dropWhile_le isNumberChar r; simp; omega
  · simp

/-- The tokens of a text. -/
def tokens (s : List Char) : Except (LexicalFault × Nat) (List Token) := tokensFrom 1 s

end ApiCanon.GraphQl
