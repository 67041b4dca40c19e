import ApiCanon.Yaml.Scalar

/-!
# Tokens of YAML

The marks and scalars of a text.  Blocks are told by indentation: a token opens each block and
another one closes it.

That a scalar is a key shows only at the colon behind it, so a token for the key is put in front of
it then.  A key stands on one line and has at most 1024 characters.  Until it is known whether a
token is a key, no reader may have seen it; a fault met in the meantime comes before the token.
-/

namespace ApiCanon.Yaml

open CharReader

inductive TokenKind where
  | streamEnd
  | versionDirective (major minor : Nat)
  | tagDirective (handle uri : String)
  | documentStart
  | documentEnd
  | blockSequenceStart
  | blockMappingStart
  | blockEnd
  | flowSequenceStart
  | flowSequenceEnd
  | flowMappingStart
  | flowMappingEnd
  | blockEntry
  | flowEntry
  | key
  | value
  | aliasOf (name : String)
  | anchor (name : String)
  | tag (handle suffix : String)
  | scalar (plain : Bool) (text : String)
  /-- The text cannot be read any further. -/
  | broken (f : Fault)
  deriving DecidableEq, Repr, Inhabited

/-- A token with the places of its beginning and its end. -/
structure Token where
  kind : TokenKind
  start : Mark
  stop : Mark
  deriving DecidableEq, Repr, Inhabited

/-! ## Directives, anchors and tags -/

/-- Reads a part of a version. -/
def readVersionNumber (start : Mark) : CharReader Nat := do
  let digits := (← cursor).rest.takeWhile Char.isDigit
  skip (min digits.length 9)
  if digits.length > 9 then fail .longVersion .versionDirective start
  else if digits.isEmpty then fail .missingVersion .versionDirective start
  else pure (digits.foldl (fun acc c => acc * 10 + (c.toNat - 48)) 0)

/-- The bytes of a character of which the first is given: its length in UTF-8, if it can be one. -/
def octetLength? (b : UInt8) : Option Nat :=
  if b &&& 0x80 == 0 then some 1
  else if b &&& 0xE0 == 0xC0 then some 2
  else if b &&& 0xF0 == 0xE0 then some 3
  else if b &&& 0xF8 == 0xF0 then some 4
  else none

/-- Reads an escaped byte of a tag. -/
def readOctet (activity : Activity) (start : Mark) : CharReader UInt8 := do
  match (← cursor).rest with
  | '%' :: a :: b :: _ =>
    match Bytes.hexValue? a, Bytes.hexValue? b with
    | some x, some y => pure (UInt8.ofNat (x * 16 + y))
    | _, _ => fail .missingOctet activity start
  | _ => fail .missingOctet activity start

/-- Reads the escaped bytes that follow the first one of a character. -/
def readOctets (activity : Activity) (start : Mark) : Nat → CharReader (List UInt8)
  | 0 => pure []
  | n + 1 => do
    let b ← readOctet activity start
    if b &&& 0xC0 != 0x80 then fail .badTrailingOctet activity start
    else
      skip 3
      pure (b :: (← readOctets activity start n))

/-- Reads the escaped bytes of a character. -/
def readEscapedChar (activity : Activity) (start : Mark) : CharReader (List UInt8) := do
  let b ← readOctet activity start
  match octetLength? b with
  | none => fail .badLeadingOctet activity start
  | some n =>
    skip 3
    pure (b :: (← readOctets activity start (n - 1)))

/-- A character of the address of a tag; some of them only if it is written in full. -/
def isUriChar (full : Bool) (c : Char) : Bool :=
  isNameChar c || ";/?:@&=+$.%!~*'()".toList.contains c || (full && ",[]".toList.contains c)

/-- Reads the address of a tag as bytes. -/
def readUriBytes (full : Bool) (activity : Activity) (start : Mark) :
    Nat → CharReader (List UInt8)
  | 0 => pure []
  | n + 1 => do
    match ← peek with
    | none => pure []
    | some c =>
      if c == '%' then
        let b ← readEscapedChar activity start
        pure (b ++ (← readUriBytes full activity start n))
      else if isUriChar full c then
        skip 1
        pure (Bytes.ofString (String.singleton c) ++ (← readUriBytes full activity start n))
      else pure []

/-- Reads the address of a tag behind its head, of which the first character is not part of it. -/
def readUri (full directive : Bool) (head : List Char) (start : Mark) : CharReader String := do
  let activity := if directive then Activity.directiveUri else .tagUri
  let bytes ← readUriBytes full activity start (← cursor).rest.length
  if head.isEmpty && bytes.isEmpty then fail .missingUri activity start
  else
    let text := (Bytes.toString? bytes).getD ""
    pure (String.ofList head.tail ++ text)

/-- Reads a handle: an exclamation mark, perhaps with a name and another mark. -/
def readHandle (directive : Bool) (start : Mark) : CharReader (List Char) := do
  if !(← isNext '!') then
    fail .missingExclamation (if directive then .directiveHandle else .tag) start
  else
    skip 1
    let name ← takeWhile isNameChar
    if ← isNext '!' then
      skip 1
      pure ('!' :: name ++ ['!'])
    else if directive && !name.isEmpty then fail .missingExclamation .directiveHandleEnd start
    else pure ('!' :: name)

/-- Reads a directive up to the end of its line. -/
def readDirective : CharReader TokenKind := do
  let start ← mark
  skip 1
  let name ← takeWhile isNameChar
  if name.isEmpty then fail .missingDirectiveName .directive start
  else if !(← peek).all isBlankOrBreak then fail .badDirectiveName .directive start
  else
    let kind ←
      if name == "YAML".toList then do
        let _ ← takeWhile isSpaceOrTab
        let major ← readVersionNumber start
        if ← isNext '.' then
          skip 1
          pure (TokenKind.versionDirective major (← readVersionNumber start))
        else fail .badVersion .versionDirective start
      else if name == "TAG".toList then do
        let _ ← takeWhile isSpaceOrTab
        let handle ← readHandle true start
        if !(← peek).any isSpaceOrTab then fail .missingBlank .tagDirective start
        else
          let _ ← takeWhile isSpaceOrTab
          let uri ← readUri true true [] start
          if (← peek).all isBlankOrBreak then
            pure (TokenKind.tagDirective (String.ofList handle) uri)
          else fail .missingBlankOrBreak .tagDirective start
      else fail .unknownDirective .directive start
    skipComment
    if !(← atLineEnd) then fail .trailingText .directive start
    else
      let _ ← readBreak
      pure kind

/-- Reads the name of an anchor or an alias. -/
def readName (activity : Activity) : CharReader String := do
  let start ← mark
  skip 1
  let name ← takeWhile isNameChar
  let ends := (← peek).all fun c => isBlankOrBreak c || "?:,]\x7d%@\x60".toList.contains c
  if name.isEmpty || !ends then fail .missingName activity start
  else pure (String.ofList name)

/-- Reads a tag: an address in angle brackets, or a handle with a suffix. -/
def readTag (flow : Bool) : CharReader TokenKind := do
  let start ← mark
  let kind ←
    if (← peekAt 1) == some '<' then do
      skip 2
      let uri ← readUri true false [] start
      if ← isNext '>' then
        skip 1
        pure (TokenKind.tag "" uri)
      else fail .missingAngle .tag start
    else do
      let handle ← readHandle false start
      if handle.length > 1 && handle.getLast? == some '!' then
        let suffix ← readUri false false [] start
        pure (TokenKind.tag (String.ofList handle) suffix)
      else
        let suffix ← readUri false false handle start
        pure (if suffix.isEmpty then TokenKind.tag "" "!" else TokenKind.tag "!" suffix)
  if (← peek).all isBlankOrBreak || (flow && (← isNext ',')) then pure kind
  else fail .missingBlankOrBreak .tag start

/-! ## States -/

/-- A token that may turn out to be a key. -/
structure PossibleKey where
  /-- Whether nothing but a key may stand here. -/
  required : Bool
  /-- The number of tokens in front of it. -/
  number : Nat
  mark : Mark
  deriving DecidableEq, Repr, Inhabited

/-- What has been read of a text. -/
structure Scan where
  cursor : Cursor
  /-- The possible key of each open bracket, and of the text around them. -/
  keys : List (Option PossibleKey)
  /-- The indentation of the block, negative outside of all blocks, and those of the blocks around
  it. -/
  indent : Int
  indents : List Int
  keyAllowed : Bool
  /-- The tokens, the last one first. -/
  tokens : List Token
  count : Nat
  finished : Bool
  deriving Inhabited

namespace Scan

def start (text : List Char) : Scan :=
  ⟨⟨text, .zero⟩, [none], -1, [], true, [], 0, false⟩

/-- Whether a bracket is open. -/
def inFlow (s : Scan) : Bool := s.keys.length > 1

def mark (s : Scan) : Mark := s.cursor.mark

def push (s : Scan) (t : Token) : Scan := { s with tokens := t :: s.tokens, count := s.count + 1 }

/-- Puts a token in front of all but the first `n`. -/
def insertAt (s : Scan) (n : Nat) (t : Token) : Scan :=
  let behind := s.count - n
  { s with
    tokens := s.tokens.take behind ++ t :: s.tokens.drop behind
    count := s.count + 1 }

/-- A problem at the current place. -/
def fault (s : Scan) (problem : Problem) (context? : Option (Activity × Mark)) : Fault :=
  ⟨problem, s.mark, 0, context?⟩

/-- Reads characters. -/
def read {α : Type} (s : Scan) (p : CharReader α) : Except Fault (α × Scan) := do
  let (a, c) ← p s.cursor
  pure (a, { s with cursor := c })

/-- Reads a token of characters. -/
def readToken (s : Scan) (p : CharReader TokenKind) : Except Fault Scan := do
  let (kind, t) ← s.read p
  pure (t.push ⟨kind, s.mark, t.mark⟩)

/-! ## Keys -/

/-- The possible key of the innermost bracket. -/
def key? (s : Scan) : Option PossibleKey := s.keys.headD none

def setKey (s : Scan) (k : Option PossibleKey) : Scan := { s with keys := k :: s.keys.tail }

/-- A key that has to be one, but is not. -/
def missingColon (s : Scan) (k : PossibleKey) : Fault :=
  s.fault .missingColon (some (.simpleKey, k.mark))

/-- Gives up the possible key of the innermost bracket. -/
def dropKey (s : Scan) : Except Fault Scan :=
  match s.key? with
  | some k => if k.required then .error (s.missingColon k) else .ok (s.setKey none)
  | none => .ok s

/-- Notes that the next token may be a key. -/
def saveKey (s : Scan) : Except Fault Scan :=
  if s.keyAllowed then do
    let required := !s.inFlow && s.indent == s.mark.column
    pure ((← s.dropKey).setKey (some ⟨required, s.count, s.mark⟩))
  else pure s

/-- Whether a possible key is too far away from the current place. -/
def isStale (s : Scan) (k : PossibleKey) : Bool :=
  k.mark.line < s.mark.line || k.mark.index + 1024 < s.mark.index

/-- Gives up the possible keys that are too far away. -/
def dropStale (s : Scan) : Except Fault Scan :=
  -- the outermost bracket comes first
  match s.keys.reverse.findSome? fun k? => k?.filter fun k => s.isStale k && k.required with
  | some k => .error (s.missingColon k)
  | none => .ok { s with keys := s.keys.map fun k? => k?.filter fun k => !s.isStale k }

/-! ## Blocks -/

/-- Opens a block at a column, unless one that deep is open; its token goes behind the first `n`. -/
def openBlock (s : Scan) (column n : Nat) (kind : TokenKind) (m : Mark) : Scan :=
  if s.inFlow || !(s.indent < column) then s
  else
    { s.insertAt n ⟨kind, m, m⟩ with indent := column, indents := s.indent :: s.indents }

/-- Closes the blocks that are deeper than a column. -/
def closeBlocks (s : Scan) (column : Int) : Scan :=
  if s.inFlow then s
  else
    let closed := (s.indent :: s.indents).takeWhile (column < ·)
    let left := (s.indent :: s.indents).drop closed.length
    { s with
      tokens := List.replicate closed.length ⟨.blockEnd, s.mark, s.mark⟩ ++ s.tokens
      count := s.count + closed.length
      indent := left.headD (-1)
      indents := left.tail }

/-! ## Tokens one by one -/

/-- Takes a mark of some characters. -/
def pushMark (s : Scan) (n : Nat) (kind : TokenKind) : Scan :=
  let c := s.cursor.advance n
  { s.push ⟨kind, s.mark, c.mark⟩ with cursor := c }

def allowKey (s : Scan) (b : Bool) : Scan := { s with keyAllowed := b }

def openBracket (s : Scan) (kind : TokenKind) : Except Fault Scan := do
  let s ← s.saveKey
  pure (({ s with keys := none :: s.keys }.allowKey true).pushMark 1 kind)

def closeBracket (s : Scan) (kind : TokenKind) : Except Fault Scan := do
  let s ← s.dropKey
  let s := if s.inFlow then { s with keys := s.keys.tail } else s
  pure ((s.allowKey false).pushMark 1 kind)

/-- Takes a mark that begins an item, a key or a value where the innermost bracket has no key. -/
def openEntry (s : Scan) (kind : TokenKind) (problem : Problem) : Except Fault Scan :=
  if s.inFlow then .ok s
  else if s.keyAllowed then .ok (s.openBlock s.mark.column s.count kind s.mark)
  else .error (s.fault problem none)

def takeBlockEntry (s : Scan) : Except Fault Scan := do
  let s ← s.openEntry .blockSequenceStart .entryNotAllowed
  pure (((← s.dropKey).allowKey true).pushMark 1 .blockEntry)

def takeKey (s : Scan) : Except Fault Scan := do
  let s ← s.openEntry .blockMappingStart .keyNotAllowed
  let s ← s.dropKey
  pure ((s.allowKey !s.inFlow).pushMark 1 .key)

/-- Takes a colon: what may be a key is one now. -/
def takeValue (s : Scan) : Except Fault Scan := do
  match s.key? with
  | some k =>
    let s := (s.insertAt k.number ⟨.key, k.mark, k.mark⟩).openBlock k.mark.column k.number
      .blockMappingStart k.mark
    pure (((s.setKey none).allowKey false).pushMark 1 .value)
  | none =>
    let s ← s.openEntry .blockMappingStart .valueNotAllowed
    pure ((s.allowKey !s.inFlow).pushMark 1 .value)

/-- Closes everything at a directive or a mark for a document. -/
def closeAll (s : Scan) : Except Fault Scan := do
  pure ((← (s.closeBlocks (-1)).dropKey).allowKey false)

/-- Ends the text; a last line without an end counts as ended. -/
def finish (s : Scan) : Except Fault Scan := do
  let m := s.mark
  let s := if m.column == 0 then s
    else { s with cursor := { s.cursor with mark := ⟨m.index, m.line + 1, 0⟩ } }
  let s ← s.closeAll
  pure { s.push ⟨.streamEnd, s.mark, s.mark⟩ with finished := true }

/-- Takes a plain scalar.  Behind a line end there may be a key again. -/
def takePlain (s : Scan) : Except Fault Scan := do
  let s ← s.saveKey
  let start := s.mark
  let (p, s) ← s.read (readPlain s.inFlow (s.indent + 1).toNat)
  let s := s.push ⟨.scalar true (String.ofList p.text), start, p.stop⟩
  pure (s.allowKey p.lineEnded)

/-- Takes a quoted scalar. -/
def takeQuoted (s : Scan) (quote : Char) : Except Fault Scan := do
  let s := (← s.saveKey).allowKey false
  s.readToken do pure (.scalar false (String.ofList (← readQuoted quote)))

/-- Takes a block scalar. -/
def takeBlockScalar (s : Scan) (literal : Bool) : Except Fault Scan := do
  let s := (← s.dropKey).allowKey true
  s.readToken do pure (.scalar false (String.ofList (← readBlock literal s.indent)))

/-- Skips blanks, comments and line ends.  Tabs are blanks where no key may stand; behind a line end
outside of brackets there may be a key. -/
def skipToToken : Nat → Scan → Scan
  | 0, s => s
  | n + 1, s =>
    let c := s.cursor
    let c := if c.mark.column == 0 && c.rest.head? == some '\ufeff' then c.advance 1 else c
    let tabs := s.inFlow || !s.keyAllowed
    let (_, c) := c.span fun d => d == ' ' || (tabs && d == '\t')
    let (_, c) := if c.rest.head? == some '#' then c.span fun d => !isBreak d else ([], c)
    if c.rest.head?.any isBreak then
      skipToToken n
        { s with cursor := c.readBreak.2, keyAllowed := s.keyAllowed || !s.inFlow }
    else { s with cursor := c }

/-- A character that a plain scalar cannot begin with, unless it is told by the one behind it. -/
def isIndicator (c : Char) : Bool :=
  "-?:,[]\x7b\x7d#&*!|>'\"%@\x60".toList.contains c

/-- Whether a plain scalar begins here. -/
def startsPlain (flow : Bool) (c : Char) (next? : Option Char) : Bool :=
  !isIndicator c || (c == '-' && !next?.any isSpaceOrTab) ||
    (!flow && (c == '?' || c == ':') && !next?.all isBlankOrBreak)

/-- Takes the token that begins with a character. -/
def takeToken (s : Scan) (c : Char) : Except Fault Scan := do
  let next? := s.cursor.rest.tail.head?
  let blankNext := next?.all isBlankOrBreak
  if s.mark.column == 0 && c == '%' then
    (← s.closeAll).readToken readDirective
  else if s.cursor.atMarker ['-', '-', '-'] then
    pure ((← s.closeAll).pushMark 3 .documentStart)
  else if s.cursor.atMarker ['.', '.', '.'] then
    pure ((← s.closeAll).pushMark 3 .documentEnd)
  else if c == '[' then s.openBracket .flowSequenceStart
  else if c == '\x7b' then s.openBracket .flowMappingStart
  else if c == ']' then s.closeBracket .flowSequenceEnd
  else if c == '\x7d' then s.closeBracket .flowMappingEnd
  else if c == ',' then
    pure (((← s.dropKey).allowKey true).pushMark 1 .flowEntry)
  else if c == '-' && blankNext then s.takeBlockEntry
  else if c == '?' && (s.inFlow || blankNext) then s.takeKey
  else if c == ':' && (s.inFlow || blankNext) then s.takeValue
  else if c == '*' then
    ((← s.saveKey).allowKey false).readToken do pure (.aliasOf (← readName .aliasName))
  else if c == '&' then
    ((← s.saveKey).allowKey false).readToken do pure (.anchor (← readName .anchor))
  else if c == '!' then ((← s.saveKey).allowKey false).readToken (readTag s.inFlow)
  else if c == '|' && !s.inFlow then s.takeBlockScalar true
  else if c == '>' && !s.inFlow then s.takeBlockScalar false
  else if c == '\'' || c == '"' then s.takeQuoted c
  else if startsPlain s.inFlow c next? then s.takePlain
  else .error (s.fault .unknownToken (some (.nextToken, s.mark)))

/-- Takes the next token. -/
def step (s : Scan) : Except Fault Scan := do
  let s ← (skipToToken (s.cursor.rest.length + 1) s).dropStale
  let s := s.closeBlocks s.mark.column
  let s ← match s.cursor.rest.head? with
    | none => s.finish
    | some c => s.takeToken c
  s.dropStale

/-- The number of tokens that are known not to be keys, or to be ones. -/
def settled (s : Scan) : Nat :=
  s.keys.foldl (fun n k? => match k? with
    | some k => min n k.number
    | none => n) s.count

/-- Takes tokens up to the end or to a fault. -/
def run : Nat → Scan → List Token
  | 0, s => s.tokens.reverse
  | n + 1, s =>
    if s.finished then s.tokens.reverse
    else match s.step with
      | .ok t => run n t
      | .error f => s.tokens.reverse.take s.settled ++ [⟨.broken f, f.mark, f.mark⟩]

end Scan

/-- The tokens of a text; the last one is its end, or tells where it cannot be read any further. -/
def tokens (text : List Char) : List Token := (Scan.start text).run (text.length + 2)

end ApiCanon.Yaml
