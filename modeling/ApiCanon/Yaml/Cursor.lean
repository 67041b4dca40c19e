import ApiCanon.Text.Bytes
import ApiCanon.Text.Search
import ApiCanon.Yaml.Fault

/-!
# Reading characters of YAML

What is left of a text, with its place.  A line may end in a carriage return, a line feed, both, a
next-line control or one of the two separators; all but the separators are read as a line feed.

A run of blanks and line ends inside of a scalar is a gap: a single line end becomes a blank, and
of several the first is dropped.
-/

namespace ApiCanon.Yaml

/-! ## Classes of characters -/

def isSpaceOrTab (c : Char) : Bool := c == ' ' || c == '\t'

def isBreak (c : Char) : Bool :=
  c == '\n' || c == '\r' || c == '\u0085' || c == '\u2028' || c == '\u2029'

def isBlankOrBreak (c : Char) : Bool := isSpaceOrTab c || isBreak c

/-- A character of a name. -/
def isNameChar (c : Char) : Bool := c.isAlphanum || c == '_' || c == '-'

/-- Whether a character may stand in a document. -/
def isAllowed (c : Char) : Bool :=
  let n := c.toNat
  n == 9 || n == 10 || n == 13 || (0x20 ≤ n && n ≤ 0x7E) || n == 0x85 ||
    (0xA0 ≤ n && n ≤ 0xD7FF) || (0xE000 ≤ n && n ≤ 0xFFFD) || 0x10000 ≤ n

/-! ## Cursors -/

/-- What is left of a text, and its place. -/
structure Cursor where
  rest : List Char
  mark : Mark
  deriving Repr, Inhabited

namespace Cursor

/-- Goes behind a number of characters that end no line. -/
def advance (c : Cursor) (n : Nat) : Cursor :=
  ⟨c.rest.drop n, { c.mark with index := c.mark.index + n, column := c.mark.column + n }⟩

/-- Goes to the next line behind `n` characters. -/
def nextLine (c : Cursor) (n : Nat) : Cursor :=
  ⟨c.rest.drop n, ⟨c.mark.index + n, c.mark.line + 1, 0⟩⟩

/-- What the end of a line is read as, and what follows it. -/
def readBreak (c : Cursor) : List Char × Cursor :=
  match c.rest with
  | '\r' :: '\n' :: _ => (['\n'], c.nextLine 2)
  | d :: _ =>
    if d == '\u2028' || d == '\u2029' then ([d], c.nextLine 1)
    else if isBreak d then (['\n'], c.nextLine 1)
    else ([], c)
  | [] => ([], c)

/-- Splits the characters off for which `p` holds; none of them ends a line. -/
def span (c : Cursor) (p : Char → Bool) : List Char × Cursor :=
  let a := c.rest.takeWhile p
  (a, c.advance a.length)

/-- Whether the cursor stands at the marker of a document: three characters at the beginning of a
line with a blank behind. -/
def atMarker (c : Cursor) (m : List Char) : Bool :=
  c.mark.column == 0 && match Text.stripPrefix? m c.rest with
    | some r => r.head?.all isBlankOrBreak
    | none => false

def atDocumentMarker (c : Cursor) : Bool :=
  c.atMarker ['-', '-', '-'] || c.atMarker ['.', '.', '.']

end Cursor

/-- A reader of characters. -/
abbrev CharReader := StateT Cursor (Except Fault)

namespace CharReader

variable {α : Type}

def peek : CharReader (Option Char) := fun c => .ok (c.rest.head?, c)

/-- The character some places further. -/
def peekAt (n : Nat) : CharReader (Option Char) := fun c => .ok (c.rest[n]?, c)

def mark : CharReader Mark := fun c => .ok (c.mark, c)

def cursor : CharReader Cursor := fun c => .ok (c, c)

/-- Drops characters that end no line. -/
def skip (n : Nat) : CharReader Unit := fun c => .ok ((), c.advance n)

def readBreak : CharReader (List Char) := fun c => .ok c.readBreak

def takeWhile (p : Char → Bool) : CharReader (List Char) := fun c => .ok (c.span p)

/-- Gives up at the current place. -/
def fail (problem : Problem) (activity : Activity) (start : Mark) : CharReader α := fun c =>
  .error ⟨problem, c.mark, 0, some (activity, start)⟩

/-- Whether the next character is a certain one. -/
def isNext (d : Char) : CharReader Bool := do
  pure ((← peek) == some d)

/-- Drops blanks and a comment, up to the end of the line. -/
def skipComment : CharReader Unit := do
  let _ ← takeWhile isSpaceOrTab
  if ← isNext '#' then
    let _ ← takeWhile fun c => !isBreak c

/-- Whether a line ends here. -/
def atLineEnd : CharReader Bool := do
  pure ((← peek).all isBreak)

end CharReader

/-! ## Gaps -/

/-- A run of blanks and line ends. -/
structure Gap where
  /-- The blanks in front of the first line end. -/
  blanks : List Char
  /-- What the line ends are read as. -/
  breaks : List Char
  /-- Whether a line end was marked as not to be read. -/
  joined : Bool
  deriving DecidableEq, Repr, Inhabited

namespace Gap

def empty : Gap := ⟨[], [], false⟩

/-- Whether a line ends in the gap. -/
def isBroken (g : Gap) : Bool := g.joined || !g.breaks.isEmpty

/-- What a gap is read as. -/
def text (g : Gap) : List Char :=
  if g.joined then g.breaks
  else match g.breaks with
    | [] => g.blanks
    | ['\n'] => [' ']
    | '\n' :: r => r
    | b => b

end Gap

open CharReader

/-- Reads a gap.  Where `indent?` gives an indentation, a tab must not stand in front of it on a
further line. -/
def readGap (indent? : Option Nat) (start : Mark) : Nat → Gap → CharReader Gap
  | 0, g => pure g
  | n + 1, g => do
    match ← peek with
    | none => pure g
    | some c =>
      if isSpaceOrTab c then
        let column := (← mark).column
        if g.isBroken && c == '\t' && indent?.any (column < ·) then
          fail .tabInScalar .plainScalar start
        else
          skip 1
          readGap indent? start n (if g.isBroken then g else { g with blanks := g.blanks ++ [c] })
      else if isBreak c then
        let b ← readBreak
        readGap indent? start n { g with breaks := g.breaks ++ b }
      else pure g

end ApiCanon.Yaml
