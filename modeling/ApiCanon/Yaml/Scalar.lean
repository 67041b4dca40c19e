import ApiCanon.Text.Bytes
import ApiCanon.Yaml.Cursor

/-!
# Scalars

Plain, quoted and block scalars.

* A plain scalar ends in front of a comment, of a colon with a blank behind it, of a mark for a
  document, and of a line that is not indented deeply enough; between brackets also in front of
  their marks.
* A quoted scalar ends at its quote; double quotes admit escapes.
* A block scalar has the lines that are indented as deeply as its first one.  The line ends are
  kept or folded, and those at the end are clipped, dropped or kept.
-/

namespace ApiCanon.Yaml

open CharReader

/-! ## Plain scalars -/

/-- Whether a character is a mark between brackets. -/
def isFlowMark (c : Char) : Bool :=
  c == ',' || c == '[' || c == ']' || c == '\x7b' || c == '\x7d'

/-- The characters of a word of a plain scalar. -/
def plainWord (flow : Bool) : List Char → List Char
  | [] => []
  | c :: r =>
    if isBlankOrBreak c then []
    else if c == ':' && (r.head?.all isBlankOrBreak ||
        (flow && r.head?.any fun d => isFlowMark d || d == '?')) then []
    else if flow && isFlowMark c then []
    else c :: plainWord flow r

/-- A plain scalar. -/
structure PlainScalar where
  text : List Char
  /-- The place behind its last word. -/
  stop : Mark
  /-- Whether a line ends behind it. -/
  lineEnded : Bool

/-- Reads the words of a plain scalar behind some text and a gap. -/
def readWords (flow : Bool) (indent : Nat) (start : Mark) :
    Nat → List Char → Mark → Gap → CharReader PlainScalar
  | 0, text, stop, g => pure ⟨text, stop, g.isBroken⟩
  | n + 1, text, stop, g => do
    let c ← cursor
    if c.atDocumentMarker || c.rest.head? == some '#' then pure ⟨text, stop, g.isBroken⟩
    else
      let word := plainWord flow c.rest
      skip word.length
      let rest := c.rest.drop word.length
      if flow && rest.head? == some ':' && (rest.tail.head?.any fun d => !isBlankOrBreak d) then
        fail .unexpectedColon .plainScalar start
      else
        let (text, stop, g) ←
          if word.isEmpty then pure (text, stop, g)
          else pure (text ++ g.text ++ word, ← mark, Gap.empty)
        if rest.head?.any isBlankOrBreak then
          let g ← readGap (some indent) start rest.length g
          if !flow && (← mark).column < indent then pure ⟨text, stop, g.isBroken⟩
          else readWords flow indent start n text stop g
        else pure ⟨text, stop, g.isBroken⟩

/-- Reads a plain scalar with lines indented at least as deep as `indent`. -/
def readPlain (flow : Bool) (indent : Nat) : CharReader PlainScalar := do
  let c ← cursor
  readWords flow indent c.mark (c.rest.length + 1) [] c.mark Gap.empty

/-! ## Quoted scalars -/

/-- What an escape stands for, or the number of digits of the code that follows. -/
inductive Escape where
  | char (c : Char)
  | code (digits : Nat)

/-- The escape of a character behind a backslash. -/
def escape? (c : Char) : Option Escape :=
  match c with
  | '0' => some (.char '\u0000')
  | 'a' => some (.char '\u0007')
  | 'b' => some (.char '\u0008')
  | 't' => some (.char '\t')
  | '\t' => some (.char '\t')
  | 'n' => some (.char '\n')
  | 'v' => some (.char '\u000b')
  | 'f' => some (.char '\u000c')
  | 'r' => some (.char '\r')
  | 'e' => some (.char '\u001b')
  | ' ' => some (.char ' ')
  | '"' => some (.char '"')
  | '/' => some (.char '/')
  | '\\' => some (.char '\\')
  | 'N' => some (.char '\u0085')
  | '_' => some (.char '\u00a0')
  | 'L' => some (.char '\u2028')
  | 'P' => some (.char '\u2029')
  | 'x' => some (.code 2)
  | 'u' => some (.code 4)
  | 'U' => some (.code 8)
  | _ => none

/-- The value of hexadecimal digits. -/
def hexNumber? (digits : List Char) : Option Nat :=
  digits.foldlM (fun acc c => (Bytes.hexValue? c).map fun d => acc * 16 + d) 0

/-- Reads an escape behind its backslash. -/
def readEscape (start : Mark) : CharReader (List Char) := do
  match (← peekAt 1).bind escape? with
  | none => fail .unknownEscape .escape start
  | some (.char c) =>
    skip 2
    pure [c]
  | some (.code n) =>
    skip 2
    let digits := (← cursor).rest.take n
    match if digits.length == n then hexNumber? digits else none with
    | none => fail .badHexadecimal .escape start
    | some code =>
      if h : code.isValidChar then
        skip n
        pure [Char.ofNatAux code h]
      else fail .badCharacterCode .escape start

/-- Reads characters of a quoted scalar up to its end, a blank or the end of a line; also tells
whether it stopped at a line end that is not to be read. -/
def readQuotedRun (quote : Char) (start : Mark) : Nat → List Char → CharReader (List Char × Bool)
  | 0, text => pure (text, false)
  | n + 1, text => do
    match ← peek with
    | none => pure (text, false)
    | some c =>
      if isBlankOrBreak c then pure (text, false)
      else if c == quote then
        if quote == '\'' && (← peekAt 1) == some '\'' then
          skip 2
          readQuotedRun quote start n (text ++ ['\''])
        else pure (text, false)
      else if c == '\\' && quote == '"' then
        if (← peekAt 1).any isBreak then
          skip 1
          let _ ← readBreak
          pure (text, true)
        else
          let a ← readEscape start
          readQuotedRun quote start n (text ++ a)
      else
        skip 1
        readQuotedRun quote start n (text ++ [c])

/-- Reads a quoted scalar behind some text. -/
def readQuotedFrom (quote : Char) (start : Mark) : Nat → List Char → CharReader (List Char)
  | 0, text => pure text
  | n + 1, text => do
    let c ← cursor
    if c.atDocumentMarker then fail .documentIndicator .quotedScalar start
    else if c.rest.isEmpty then fail .endOfStream .quotedScalar start
    else
      let (run, joined) ← readQuotedRun quote start c.rest.length []
      let text := text ++ run
      if ← isNext quote then
        skip 1
        pure text
      else
        let g ← readGap none start c.rest.length { Gap.empty with joined := joined }
        readQuotedFrom quote start n (text ++ g.text)

/-- Reads a quoted scalar. -/
def readQuoted (quote : Char) : CharReader (List Char) := do
  let c ← cursor
  skip 1
  readQuotedFrom quote c.mark (c.rest.length + 1) []

/-! ## Block scalars -/

/-- What becomes of the line ends at the end of a block scalar. -/
inductive Chomping where
  | strip
  | clip
  | keep
  deriving DecidableEq, Repr

/-- Reads the sign that says what becomes of the last line ends. -/
def readChomping : CharReader Chomping := do
  if ← isNext '+' then
    skip 1
    pure .keep
  else if ← isNext '-' then
    skip 1
    pure .strip
  else pure .clip

/-- Reads a digit that gives the indentation; none is zero. -/
def readIndentation (start : Mark) : CharReader Nat := do
  match ← peek with
  | some c =>
    if c == '0' then fail .zeroIndentation .blockScalar start
    else if c.isDigit then
      skip 1
      pure (c.toNat - 48)
    else pure 0
  | none => pure 0

/-- Reads the sign and the digit behind the mark of a block scalar, in either order. -/
def readBlockHeader (start : Mark) : CharReader (Chomping × Nat) := do
  let chomping ← readChomping
  let increment ← readIndentation start
  if chomping == .clip && increment != 0 then pure (← readChomping, increment)
  else pure (chomping, increment)

/-- Reads blank lines with the indentation of the line behind them.  An indentation of zero is not
known yet; `widest` is the greatest one so far. -/
def readBlankLines (indent : Nat) (start : Mark) :
    Nat → Nat → List Char → CharReader (Nat × List Char)
  | 0, widest, breaks => pure (widest, breaks)
  | n + 1, widest, breaks => do
    let here := (← mark).column
    let blanks := ((← cursor).rest.takeWhile (· == ' ')).length
    skip (if indent == 0 then blanks else min blanks (indent - here))
    let column := (← mark).column
    let widest := max widest column
    if (indent == 0 || column < indent) && (← isNext '\t') then
      fail .tabForIndentation .blockScalar start
    else if (← peek).any isBreak then
      let b ← readBreak
      readBlankLines indent start n widest (breaks ++ b)
    else pure (widest, breaks)

/-- The text between two lines of a block scalar: the line end of the first, which a folded scalar
reads as a blank unless one of the two begins with a blank, and the blank lines. -/
def betweenLines (literal : Bool) (lineEnd breaks : List Char) (blankBefore blankAfter : Bool) :
    List Char :=
  if !literal && lineEnd == ['\n'] && !blankBefore && !blankAfter then
    if breaks.isEmpty then [' '] else breaks
  else lineEnd ++ breaks

/-- The lines of a block scalar. -/
structure BlockLines where
  text : List Char
  /-- The line end of the last line, and the blank lines behind it. -/
  lineEnd : List Char
  breaks : List Char

/-- Reads the lines of a block scalar. -/
def readBlockLines (literal : Bool) (indent : Nat) (start : Mark) :
    Nat → BlockLines → Bool → CharReader BlockLines
  | 0, b, _ => pure b
  | n + 1, b, blankBefore => do
    let c ← cursor
    if c.mark.column != indent || c.rest.isEmpty then pure b
    else
      let blank := c.rest.head?.any isSpaceOrTab
      let between := betweenLines literal b.lineEnd b.breaks blankBefore blank
      let line ← takeWhile fun d => !isBreak d
      let lineEnd ← readBreak
      let (_, breaks) ← readBlankLines indent start (c.rest.length + 1) 0 []
      readBlockLines literal indent start n ⟨b.text ++ between ++ line, lineEnd, breaks⟩ blank

/-- Reads a block scalar inside of a block of some indentation, which is negative outside of every
block. -/
def readBlock (literal : Bool) (outer : Int) : CharReader (List Char) := do
  let c ← cursor
  let start := c.mark
  skip 1
  let (chomping, increment) ← readBlockHeader start
  skipComment
  if !(← atLineEnd) then fail .trailingText .blockScalar start
  else
    let _ ← readBreak
    let given := if increment == 0 then 0 else (max outer 0).toNat + increment
    let (widest, breaks) ← readBlankLines given start (c.rest.length + 1) 0 []
    let indent := if given == 0 then max widest (max (outer + 1) 1).toNat else given
    let b ← readBlockLines literal indent start (c.rest.length + 1) ⟨[], [], breaks⟩ false
    pure <| b.text ++
      (if chomping == .strip then [] else b.lineEnd) ++
      (if chomping == .keep then b.breaks else [])

end ApiCanon.Yaml
