import ApiCanon.Text.Blank
import ApiCanon.Text.Bytes
import ApiCanon.Text.Search
import ApiCanon.Text.Word

/-!
# Tokens of programs

Words, numbers, quoted literals and marks.  A token keeps what stands in front of it, so that the
source of a run of tokens can be put together again; comments are part of that, and are also kept
as such.  A token knows its lines and, if it is the first one of a line, its indentation.

The languages differ in their comments, literals, numbers and marks.  These are told by a `Lexis`,
whose pieces are put together from small ones by the operations of `Splitter`.

What is no token of the language is a token of the kind `bad`, which no grammar accepts.
-/

namespace ApiCanon.Syntax

/-- A comment with its delimiters. -/
structure Comment where
  text : String
  line : Nat
  lastLine : Nat
  deriving DecidableEq, Repr, Inhabited

inductive TokenKind where
  | word
  | number
  | literal
  | mark
  | bad
  | finish
  deriving DecidableEq, Repr, Inhabited

/-- A token, with what stands in front of it. -/
structure Token where
  kind : TokenKind
  text : String
  lead : String
  comments : List Comment
  line : Nat
  lastLine : Nat
  /-- The width of the indentation, for the first token of a line. -/
  indent : Option Nat
  deriving DecidableEq, Repr, Inhabited

namespace Token

def isWord (t : Token) (s : String) : Bool := t.kind == .word && t.text == s

def isMark (t : Token) (s : String) : Bool := t.kind == .mark && t.text == s

def isFinish (t : Token) : Bool := t.kind == .finish

/-- Whether a line ends in front of the token. -/
def startsLine (t : Token) : Bool := t.indent.isSome

end Token

/-- The source of a run of tokens, without what stands in front of the first. -/
def sourceOf : List Token → String
  | [] => ""
  | t :: r => t.text ++ String.join (r.map fun u => u.lead ++ u.text)

/-! ## Splitters -/

/-- Splits a piece off the front of a text, if there is one. -/
abbrev Splitter := List Char → Option (List Char × List Char)

/-- Puts characters in front of the first part of a split. -/
def behind (a : List Char) (split : List Char × List Char) : List Char × List Char :=
  (a ++ split.1, split.2)

namespace Splitter

/-- A character of a class. -/
def one (p : Char → Bool) : Splitter
  | [] => none
  | c :: r => if p c then some ([c], r) else none

/-- A character among some. -/
def oneOf (letters : String) : Splitter := one letters.toList.contains

/-- A piece with another one behind it. -/
def followedBy (p q : Splitter) : Splitter := fun s => do
  let (a, r) ← p s
  (q r).map (behind a)

/-- A piece, or nothing where there is none. -/
def perhaps (p : Splitter) : Splitter := fun s => (p s).or (some ([], s))

/-- The first of some pieces that is there. -/
def firstOf (ps : List Splitter) : Splitter := fun s => ps.findSome? (· s)

/-- A certain number of pieces of one kind. -/
def times (p : Splitter) : Nat → Splitter
  | 0 => fun s => some ([], s)
  | n + 1 => p.followedBy (p.times n)

/-- Whether a character is a digit in a base up to sixteen. -/
def isDigitIn (base : Nat) (c : Char) : Bool := (Bytes.hexValue? c).any (· < base)

/-- As many digits as there are, each perhaps with an underscore in front of it. -/
def moreDigits (base : Nat) : Splitter
  | [] => some ([], [])
  | '_' :: d :: r =>
    if isDigitIn base d then (moreDigits base r).map (behind ['_', d]) else some ([], '_' :: d :: r)
  | d :: r => if isDigitIn base d then (moreDigits base r).map (behind [d]) else some ([], d :: r)

/-- Digits, with single underscores between them. -/
def digits (base : Nat) : Splitter := (one (isDigitIn base)).followedBy (moreDigits base)

/-- A whole number behind a zero and the letter of its base. -/
def inBase (letters : String) (base : Nat) : Splitter :=
  (oneOf "0").followedBy <| (oneOf letters).followedBy <|
    (oneOf "_").perhaps.followedBy (digits base)

/-- The exponent of a number: its letter, perhaps a sign, and digits. -/
def exponent (letters : String) (digits : Splitter) : Splitter :=
  (oneOf letters).followedBy ((oneOf "+-").perhaps.followedBy digits)

end Splitter

/-! ## Pieces -/

/-- How the tokens of a language look. -/
structure Lexis where
  comment? : Splitter
  literal? : Splitter
  number? : Splitter
  /-- The marks, a longer one before those it begins with. -/
  marks : List String
  /-- Whether a backslash at the end of a line joins it with the next. -/
  joinsLines : Bool

/-- A blank of a program, zero-width ones included. -/
def isSpace (c : Char) : Bool :=
  Text.isBlank c || c == '\u200b' || c == '\u2060' || c == '\ufeff'

/-- A character that a word begins with. -/
def startsWord (c : Char) : Bool := Text.isWordChar c && !c.isDigit

/-- The first mark that the text begins with. -/
def mark? (marks : List String) : Splitter := fun s =>
  marks.findSome? fun m => (Text.stripPrefix? m.toList s).map fun r => (m.toList, r)

/-- Splits the next token off: its kind, its text and the rest. -/
def nextPiece (l : Lexis) (s : List Char) : TokenKind × List Char × List Char :=
  match l.literal? s with
  | some (a, r) => (.literal, a, r)
  | none =>
    match l.number? s with
    | some (a, r) => (.number, a, r)
    | none =>
      match s with
      | [] => (.finish, [], [])
      | c :: r =>
        if startsWord c then
          (.word, c :: r.takeWhile Text.isWordChar, r.dropWhile Text.isWordChar)
        else match mark? l.marks (c :: r) with
          | some (a, r) => (.mark, a, r)
          | none => (.bad, [c], r)

/-! ## Tokens -/

/-- The indentation behind another blank. -/
def widen (indent : Option Nat) (c : Char) : Option Nat :=
  if c == '\n' then some 0
  else if c == '\r' || c == '\x0c' then indent.map fun _ => 0
  else if c == '\t' then indent.map (· + 8)
  else indent.map (· + 1)

/-- What has been read in front of the next token. -/
structure Lead where
  /-- The characters, the last one first. -/
  chars : List Char
  comments : List Comment
  line : Nat
  indent : Option Nat

/-- A backslash and the end of its line, split off. -/
def lineJoin? : List Char → Option (List Char × List Char)
  | '\\' :: '\r' :: '\n' :: r => some (['\\', '\r', '\n'], r)
  | '\\' :: '\n' :: r => some (['\\', '\n'], r)
  | _ => none

/-- The tokens of a text behind a lead; the last of them is the end. -/
def tokensFrom (l : Lexis) (lead : Lead) (s : List Char) : List Token :=
  let token (kind : TokenKind) (a : List Char) : Token :=
    ⟨kind, String.ofList a, String.ofList lead.chars.reverse, lead.comments, lead.line,
      lead.line + Text.lineFeeds a, lead.indent⟩
  match s with
  | [] => [token .finish []]
  | c :: r =>
    if isSpace c then
      tokensFrom l
        { lead with
          chars := c :: lead.chars
          line := if c == '\n' then lead.line + 1 else lead.line
          indent := if c == '\n' then some 0 else widen lead.indent c } r
    else match l.comment? (c :: r) with
      | some (a, rest) =>
        if _h : rest.length < (c :: r).length then
          let last := lead.line + Text.lineFeeds a
          tokensFrom l
            { lead with
              chars := a.reverse ++ lead.chars
              comments := lead.comments ++ [⟨String.ofList a, lead.line, last⟩]
              line := last } rest
        else [token .bad []]
      | none =>
        match if l.joinsLines then lineJoin? (c :: r) else none with
        | some (a, rest) =>
          if _h : rest.length < (c :: r).length then
            tokensFrom l
              { lead with
                chars := a.reverse ++ lead.chars, line := lead.line + 1, indent := none } rest
          else [token .bad []]
        | none =>
          let (kind, a, rest) := nextPiece l (c :: r)
          if _h : rest.length < (c :: r).length then
            token kind a ::
              tokensFrom l ⟨[], [], lead.line + Text.lineFeeds a, none⟩ rest
          else [token .bad []]
termination_by s.length
decreasing_by all_goals simp_all

/-- The tokens of a text. -/
def tokens (l : Lexis) (s : List Char) : List Token := tokensFrom l ⟨[], [], 1, some 0⟩ s

/-! ## Reading -/

/-- Why tokens are not a program. -/
structure Fault where
  /-- The token that does not fit. -/
  token : Token
  /-- Whether only the end of a statement is missing in front of it. -/
  unended : Bool
  deriving Repr, Inhabited

/-- A reader of tokens. -/
abbrev Reader := StateT (List Token) (Except Fault)

namespace Reader

variable {α : Type}

def endToken : Token := ⟨.finish, "", "", [], 0, 0, none⟩

/-- The next token; the last one stays. -/
def peek : Reader Token := fun s => .ok (s.headD endToken, s)

/-- The token behind the next one. -/
def peekSecond : Reader Token := fun s => .ok (s.tail.headD endToken, s)

/-- Gives up at the next token. -/
def refuse : Reader α := fun s => .error ⟨s.headD endToken, false⟩

/-- Gives up at the next token because the end of a statement is missing. -/
def refuseUnended : Reader α := fun s => .error ⟨s.headD endToken, true⟩

/-- Takes the next token. -/
def next : Reader Token := fun s =>
  match s with
  | [] => .ok (endToken, [])
  | t :: r => if t.isFinish then .ok (t, t :: r) else .ok (t, r)

/-- Takes a mark if it is the next token. -/
def optionalMark (m : String) : Reader Bool := do
  if (← peek).isMark m then
    let _ ← next
    pure true
  else pure false

/-- Takes a word if it is the next token. -/
def optionalWord (w : String) : Reader Bool := do
  if (← peek).isWord w then
    let _ ← next
    pure true
  else pure false

/-- Takes a mark. -/
def mark (m : String) : Reader Unit := do
  unless ← optionalMark m do refuse

/-- Takes a certain word. -/
def word (w : String) : Reader Unit := do
  unless ← optionalWord w do refuse

/-- Takes any word. -/
def anyWord : Reader String := do
  let t ← peek
  if t.kind == .word then
    let _ ← next
    pure t.text
  else refuse

/-- Reads in one way or, if that fails, in another from the same place. -/
def either (p q : Reader α) : Reader α := fun s =>
  match p s with
  | .ok r => .ok r
  | .error _ => q s

/-- Reads something, and tells which tokens it is made of. -/
def withTokens (p : Reader α) : Reader (α × List Token) := fun s =>
  match p s with
  | .ok (a, r) => .ok ((a, s.take (s.length - r.length)), r)
  | .error e => .error e

end Reader

end ApiCanon.Syntax
