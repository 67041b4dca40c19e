import ApiCanon.Text.Literal

/-!
# Faults of YAML documents

Why a text is not a usable document: it is malformed, with the place and what was being read there,
or it is well formed but has no value.  Places are counted from zero and shown from one.

A place at the very beginning is not shown.
-/

namespace ApiCanon.Yaml

/-- A place in a text. -/
structure Mark where
  /-- The number of characters in front of it. -/
  index : Nat
  line : Nat
  column : Nat
  deriving DecidableEq, Repr, Inhabited

namespace Mark

def zero : Mark := ⟨0, 0, 0⟩

/-- Whether the place is that of the first character. -/
def isFirst (m : Mark) : Bool := m.line == 0 && m.column == 0

def text (m : Mark) : String := s!"line {m.line + 1} column {m.column + 1}"

/-- The place behind a message. -/
def suffix (m : Mark) : String := if m.isFirst then "" else " at " ++ m.text

end Mark

/-! ## Malformed texts -/

/-- What is wrong in a malformed text. -/
inductive Problem where
  | controlCharacter
  | unknownToken
  | missingColon
  | entryNotAllowed
  | keyNotAllowed
  | valueNotAllowed
  | unknownDirective
  | trailingText
  | missingDirectiveName
  | badDirectiveName
  | badVersion
  | longVersion
  | missingVersion
  | missingBlank
  | missingBlankOrBreak
  | missingName
  | missingAngle
  | missingExclamation
  | missingUri
  | missingOctet
  | badLeadingOctet
  | badTrailingOctet
  | zeroIndentation
  | tabForIndentation
  | documentIndicator
  | endOfStream
  | unknownEscape
  | badHexadecimal
  | badCharacterCode
  | unexpectedColon
  | tabInScalar
  | missingDocumentStart
  | missingContent
  | missingDash
  | missingKey
  | missingBracket
  | missingBrace
  | unknownHandle
  | repeatedVersion
  | unknownVersion
  | repeatedHandle
  deriving DecidableEq, Repr, Inhabited

namespace Problem

def message : Problem → String
  | controlCharacter => "control characters are not allowed"
  | unknownToken => "found character that cannot start any token"
  | missingColon => "could not find expected ':'"
  | entryNotAllowed => "block sequence entries are not allowed in this context"
  | keyNotAllowed => "mapping keys are not allowed in this context"
  | valueNotAllowed => "mapping values are not allowed in this context"
  | unknownDirective => "found unknown directive name"
  | trailingText => "did not find expected comment or line break"
  | missingDirectiveName => "could not find expected directive name"
  | badDirectiveName => "found unexpected non-alphabetical character"
  | badVersion => "did not find expected digit or '.' character"
  | longVersion => "found extremely long version number"
  | missingVersion => "did not find expected version number"
  | missingBlank => "did not find expected whitespace"
  | missingBlankOrBreak => "did not find expected whitespace or line break"
  | missingName => "did not find expected alphabetic or numeric character"
  | missingAngle => "did not find the expected '>'"
  | missingExclamation => "did not find expected '!'"
  | missingUri => "did not find expected tag URI"
  | missingOctet => "did not find URI escaped octet"
  | badLeadingOctet => "found an incorrect leading UTF-8 octet"
  | badTrailingOctet => "found an incorrect trailing UTF-8 octet"
  | zeroIndentation => "found an indentation indicator equal to 0"
  | tabForIndentation => "found a tab character where an indentation space is expected"
  | documentIndicator => "found unexpected document indicator"
  | endOfStream => "found unexpected end of stream"
  | unknownEscape => "found unknown escape character"
  | badHexadecimal => "did not find expected hexdecimal number"
  | badCharacterCode => "found invalid Unicode character escape code"
  | unexpectedColon => "found unexpected ':'"
  | tabInScalar => "found a tab character that violates indentation"
  | missingDocumentStart => "did not find expected <document start>"
  | missingContent => "did not find expected node content"
  | missingDash => "did not find expected '-' indicator"
  | missingKey => "did not find expected key"
  | missingBracket => "did not find expected ',' or ']'"
  | missingBrace => "did not find expected ',' or '\x7d'"
  | unknownHandle => "found undefined tag handle"
  | repeatedVersion => "found duplicate %YAML directive"
  | unknownVersion => "found incompatible YAML document"
  | repeatedHandle => "found duplicate %TAG directive"

end Problem

/-- What was being read when a problem turned up. -/
inductive Activity where
  | nextToken
  | simpleKey
  | directive
  | versionDirective
  | tagDirective
  | directiveHandle
  | directiveHandleEnd
  | directiveUri
  | tag
  | tagUri
  | anchor
  | aliasName
  | blockScalar
  | quotedScalar
  | escape
  | plainScalar
  | node
  | blockNode
  | flowNode
  | blockSequence
  | blockMapping
  | flowSequence
  | flowMapping
  deriving DecidableEq, Repr, Inhabited

namespace Activity

def text : Activity → String
  | nextToken => "while scanning for the next token"
  | simpleKey => "while scanning a simple key"
  | directive => "while scanning a directive"
  | versionDirective => "while scanning a %YAML directive"
  | tagDirective => "while scanning a %TAG directive"
  | directiveHandle => "while scanning a tag directive"
  | directiveHandleEnd => "while parsing a tag directive"
  | directiveUri => "while parsing a %TAG directive"
  | tag => "while scanning a tag"
  | tagUri => "while parsing a tag"
  | anchor => "while scanning an anchor"
  | aliasName => "while scanning an alias"
  | blockScalar => "while scanning a block scalar"
  | quotedScalar => "while scanning a quoted scalar"
  | escape => "while parsing a quoted scalar"
  | plainScalar => "while scanning a plain scalar"
  | node => "while parsing a node"
  | blockNode => "while parsing a block node"
  | flowNode => "while parsing a flow node"
  | blockSequence => "while parsing a block collection"
  | blockMapping => "while parsing a block mapping"
  | flowSequence => "while parsing a flow sequence"
  | flowMapping => "while parsing a flow mapping"

end Activity

/-- A problem with its place, and with what was being read and where that began. -/
structure Fault where
  problem : Problem
  mark : Mark
  /-- The number of bytes in front of the place, where only that is known. -/
  offset : Nat
  context? : Option (Activity × Mark)
  deriving DecidableEq, Repr, Inhabited

namespace Fault

/-- The context of a fault as shown to a user; its place only if it is another one. -/
def contextText (f : Fault) : String :=
  match f.context? with
  | none => ""
  | some (a, m) =>
    let elsewhere := m.line != f.mark.line || m.column != f.mark.column
    ", " ++ a.text ++ (if elsewhere then m.suffix else "")

def message (f : Fault) : String :=
  let place :=
    if f.mark.isFirst && f.offset != 0 then s!" at position {f.offset}" else f.mark.suffix
  f.problem.message ++ place ++ f.contextText

end Fault

/-! ## Documents without a value -/

/-- The place of a value in a document. -/
inductive Path where
  | root
  | item (parent : Path) (index : Nat)
  | field (parent : Path) (key : String)
  /-- The value of a key that is no plain text. -/
  | unnamed (parent : Path)
  deriving DecidableEq, Repr, Inhabited

namespace Path

/-- The text of a path; that of the root is a point. -/
def text : Path → String
  | root => "."
  | item p i => s!"{p.text}[{i}]"
  | field root k => k
  | field p k => p.text ++ "." ++ k
  | unnamed root => "?"
  | unnamed p => p.text ++ ".?"

end Path

/-- Why a node has no value, or is no key. -/
inductive Mismatch where
  | tagged
  | numberOutOfRange
  | sequenceKey (first : Bool)
  | mappingKey (first : Bool)
  | notBoolean (text : String)
  | notInteger (text : String)
  | notFloat (text : String)
  | notNull (text : String)
  deriving DecidableEq, Repr, Inhabited

namespace Mismatch

/-- What a key has to be; the first key of a mapping is asked for in other words. -/
def keyText (first : Bool) : String := if first then "a string key" else "a string"

def message : Mismatch → String
  | tagged => "invalid type: enum, expected any valid JSON value"
  | numberOutOfRange => "JSON number out of range"
  | sequenceKey first => "invalid type: sequence, expected " ++ keyText first
  | mappingKey first => "invalid type: map, expected " ++ keyText first
  | notBoolean t => "invalid value: string " ++ Text.literal t ++ ", expected a boolean"
  | notInteger t => "invalid value: string " ++ Text.literal t ++ ", expected an integer"
  | notFloat t => "invalid value: string " ++ Text.literal t ++ ", expected a float"
  | notNull t => "invalid value: string " ++ Text.literal t ++ ", expected null"

end Mismatch

/-- Why a text has no value. -/
inductive ReadError where
  | malformed (f : Fault)
  | unknownAnchor (mark : Mark)
  | tooDeep (mark : Mark)
  | tooManyAliases
  | severalDocuments
  | mismatch (path : Path) (mark : Mark) (m : Mismatch)
  deriving DecidableEq, Repr, Inhabited

namespace ReadError

def message : ReadError → String
  | malformed f => f.message
  | unknownAnchor m => "unknown anchor" ++ m.suffix
  | tooDeep m => "recursion limit exceeded" ++ m.suffix
  | tooManyAliases => "repetition limit exceeded"
  | severalDocuments =>
    "deserializing from YAML containing more than one document is not supported"
  | mismatch path mark m =>
    let place := if path.text == "." then "" else path.text ++ ": "
    place ++ m.message ++ mark.suffix

/-- The line of the error, where one is known. -/
def line? : ReadError → Option Nat
  | malformed f => some (f.mark.line + 1)
  | unknownAnchor m => some (m.line + 1)
  | tooDeep m => some (m.line + 1)
  | mismatch _ m _ => some (m.line + 1)
  | tooManyAliases => none
  | severalDocuments => none

end ReadError

end ApiCanon.Yaml
