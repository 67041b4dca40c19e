import ApiCanon.Collection.SortedMap
import ApiCanon.Text.Blank
import ApiCanon.Text.Bytes
import ApiCanon.Text.Search

/-!
# Docstrings

A text at the beginning of a definition: paragraphs, and then sections under headers.  The first
paragraph is the summary and the others are the description.  The section of arguments holds a
line for each, `name (type): text`, and the text may go on in the lines below.

Every line but the first is read without the indentation that they have in common.
-/

namespace ApiCanon.Python

/-- What a docstring says. -/
structure Docstring where
  summary : Option String
  description : Option String
  arguments : SortedMap String
  returns : Option String
  deriving DecidableEq, Repr, Inhabited

namespace Docstring

def empty : Docstring := ⟨none, none, .empty, none⟩

/-! ## Indentation -/

/-- The number of bytes of the blanks in front of a line. -/
def indentOf (line : List Char) : Nat := utf8Length (line.takeWhile Text.isBlank)

/-- Drops a number of bytes; there is no answer beyond the end or inside of a character. -/
def dropBytes? : Nat → List Char → Option (List Char)
  | 0, s => some s
  | _, [] => none
  | n, c :: r => if c.utf8Size ≤ n then dropBytes? (n - c.utf8Size) r else none

/-- The smallest indentation of the lines that are not blank. -/
def commonIndent (lines : List (List Char)) : Nat :=
  (((lines.filter fun l => !Text.allBlank l).map indentOf).min?).getD 0

/-- The lines of a text without the indentation that all but the first have in common. -/
def dedent (text : List Char) : List (List Char) :=
  match Text.lines text with
  | [] => []
  | first :: rest =>
    let indent := commonIndent rest
    Text.trim first :: rest.map fun l =>
      Text.trimRight ((dropBytes? indent l).getD (Text.trimLeft l))

/-! ## Sections -/

/-- A part of a docstring. -/
inductive Section where
  | paragraphs
  | arguments
  | returns
  | other
  deriving DecidableEq, Repr, Inhabited

/-- The section that a header opens. -/
def headed? (header : String) : Option Section :=
  match header with
  | "Args" | "Arguments" | "Parameters" => some .arguments
  | "Returns" | "Return" => some .returns
  | "Raises" | "Yields" | "Example" | "Examples" | "Note" | "Notes" => some .other
  | _ => none

/-- The section that a line opens: its header is not indented and ends in a colon. -/
def opened? (line : List Char) : Option Section :=
  if line.head? == some ' ' then none
  else (Text.stripSuffix? [':'] (Text.trim line)).bind fun h => headed? (String.ofList h)

/-- The name and the text of an argument.  Words in front of a colon are a sentence, unless they
hold a type in brackets. -/
def argument? (line : List Char) : Option (List Char × List Char) :=
  match Text.splitAtFirst? (· == ':') line with
  | none => none
  | some (head, text) =>
    if head.contains ' ' && !head.contains '(' then none
    else some (Text.trim (head.takeWhile (· != '(')), Text.trim text)

/-- What has been read of a docstring. -/
structure State where
  sec : Section
  /-- The paragraphs, the last one first. -/
  paragraphs : List (List Char)
  arguments : SortedMap String
  /-- The argument that further lines belong to. -/
  current? : Option String
  returns : List (List Char)

/-- Adds a line to the paragraphs. -/
def addText (line : List Char) : List (List Char) → List (List Char)
  | p :: r => (if p.isEmpty then line else p ++ ' ' :: line) :: r
  | [] => [line]

/-- Reads another line. -/
def State.add (s : State) (line : List Char) : State :=
  let trimmed := Text.trim line
  match opened? line with
  | some t => { s with sec := t, current? := none }
  | none =>
    match s.sec with
    | .paragraphs =>
      if trimmed.isEmpty then { s with paragraphs := [] :: s.paragraphs }
      else { s with paragraphs := addText trimmed s.paragraphs }
    | .arguments =>
      if trimmed.isEmpty then s
      else match argument? trimmed with
        | some (name, text) =>
          let name := String.ofList name
          { s with
            arguments := s.arguments.insert name (String.ofList text)
            current? := some name }
        | none =>
          match s.current? with
          | none => s
          | some name =>
            match s.arguments.get? name with
            | none => s
            | some text =>
              let text := text ++ " " ++ String.ofList trimmed
              { s with arguments := s.arguments.insert name text }
    | .returns =>
      if trimmed.isEmpty then s else { s with returns := s.returns ++ [trimmed] }
    | .other => s

/-- What is returned, without the type in front of a colon. -/
def returned (text : List Char) : List Char :=
  match Text.splitAtFirst? (· == ':') text with
  | some (head, rest) => if (Text.trim head).contains ' ' then text else Text.trim rest
  | none => text

/-- A text unless it is empty. -/
def optional (s : List Char) : Option String :=
  if s.isEmpty then none else some (String.ofList s)

/-- What the lines of a docstring say. -/
def State.finished (s : State) : Docstring :=
  let paragraphs := s.paragraphs.reverse.filter fun p => !p.isEmpty
  { summary := paragraphs.head?.map String.ofList
    description := optional (['\n', '\n'].intercalate paragraphs.tail)
    arguments := s.arguments
    returns := optional (returned ([' '].intercalate s.returns)) }

/-- Reads a docstring. -/
def ofText (text : String) : Docstring :=
  ((dedent text.toList).foldl State.add ⟨.paragraphs, [[]], .empty, none, []⟩).finished

end Docstring

end ApiCanon.Python
