import ApiCanon.Go.Annotation
import ApiCanon.Go.Program
import ApiCanon.Source.Reading

/-!
# Reading Go

Functions with annotations are endpoints and structs are schemas.  The comments directly in front
of a function or a type belong to it: each of them ends on the line before the next at the latest.

A field of a struct has the name that its tag gives it, and it is described by the comments in
front of it or on its line.
-/

namespace ApiCanon.Go

open Syntax (Comment)

/-- Comments as one description, if there are any. -/
def describe (comments : List (List Char)) : Option String :=
  if comments.isEmpty then none else some (String.ofList ([' '].intercalate comments))

/-! ## Structs -/

/-- A struct under construction. -/
structure Fields where
  properties : SortedMap Property
  /-- The comments for the next field. -/
  pending : List (List Char)
  /-- The property added last, with the last line of its field. -/
  last? : Option (String × Nat)

namespace Fields

/-- A comment describes the field whose line it shares, or else the next one. -/
def addComment (d : Fields) (c : Comment) : Fields :=
  let text := commentText c.text.toList
  match d.last? with
  | some (name, line) =>
    if line == c.line then
      match d.properties.get? name with
      | some p =>
        if p.description.isNone then
          let described := { p with description := some (String.ofList text) }
          { d with properties := d.properties.insert name described }
        else d
      | none => d
    else { d with pending := d.pending ++ [text] }
  | none => { d with pending := d.pending ++ [text] }

/-- Whether a rule for validation asks for a value. -/
def mustBePresent (tag : List Char) : Bool :=
  ["binding", "validate"].any fun key =>
    match tagValue? tag key.toList with
    | some rules => (Text.splitAll (· == ',') rules).contains "required".toList
    | none => false

/-- Adds the property of a field.  A field is written out if its name begins with a capital and
its tag does not name it `-`. -/
def addName (type tag : List Char) (line : Nat) (description : Option String) (d : Fields)
    (name : String) : Fields :=
  if !(name.toList.head?.any Char.isUpper) then d
  else
    let options := match tagValue? tag "json".toList with
      | some v => Text.splitAll (· == ',') v
      | none => []
    let written := String.ofList (options.headD [])
    if written == "-" then d
    else
      let key := if written.isEmpty then name else written
      let (schema, pointer) := typeOf type
      let omitted := options.tail.contains "omitempty".toList
      let required := mustBePresent tag || (!omitted && !pointer)
      { d with
        properties := d.properties.insert key ⟨schema, nonEmpty description, required⟩
        last? := some (key, line) }

/-- Adds a member of a struct. -/
def addMember (d : Fields) : Member → Fields
  | .comment c => d.addComment c
  | .field names type tag line =>
    names.foldl (addName type.toList tag.toList line (describe d.pending))
      { d with pending := [] }

end Fields

/-- The schema of a struct. -/
def Struct.schema (description : Option String) (s : Struct) : Schema :=
  { Schema.named s.name with
    description := nonEmpty description
    properties := (s.members.foldl Fields.addMember ⟨.empty, [], none⟩).properties }

/-! ## Sources -/

/-- What has been gathered, with the comments since the last declaration. -/
structure Gathering where
  progress : Progress
  comments : List Comment

namespace Gathering

/-- The texts of the comments that belong to a declaration at a line. -/
def attached (g : Gathering) (line : Nat) : List (List Char) :=
  match g.comments.getLast? with
  | some c =>
    if c.lastLine + 1 ≥ line then g.comments.map fun c => commentText c.text.toList else []
  | none => []

/-- Adds a comment; a blank line in front of it parts it from those before. -/
def addComment (g : Gathering) (c : Comment) : Gathering :=
  match g.comments.getLast? with
  | some last =>
    if last.lastLine + 1 < c.line then { g with comments := [c] }
    else { g with comments := g.comments ++ [c] }
  | none => { g with comments := [c] }

/-- Adds a part of a program. -/
def add (s : Settings) (basePath : Option (List Char)) (g : Gathering) : Item → Gathering
  | .comment c => g.addComment c
  | .function line =>
    let (found, warnings) := endpoints basePath line (g.attached line)
    let p := warnings.foldl Progress.warn g.progress
    ⟨found.foldl (Progress.addEndpoint s line) p, []⟩
  | .types structs line =>
    let description := describe (g.attached line)
    ⟨(structs.map (Struct.schema description)).foldl (Progress.addSchema "type" (some line))
      g.progress, []⟩
  | .package _ _ => { g with comments := [] }
  | .other _ => { g with comments := [] }

end Gathering

/-- The comments of a program outside of its declarations. -/
def commentsOf (items : List Item) : List (List Char) :=
  items.filterMap fun
    | .comment c => some (commentText c.text.toList)
    | _ => none

/-- The name of the package of a program, if it has one. -/
def package? (items : List Item) : Option String :=
  items.findSome? fun
    | .package name _ => some name
    | _ => none

/-- What a program says, before its declarations are read. -/
def startOf (s : Settings) (info : GeneralInfo) (items : List Item) : Progress :=
  let d := ((Draft.start SourceKind.go.tag).project info.title info.version).project
    s.projectName s.projectVersion
  ⟨match package? items with
    | some name => d.extra "package" (.string name)
    | none => d, []⟩

/-- The error of a text that is no program. -/
def SyntaxError.issue (e : SyntaxError) : Issue := .parseErrorAt e.line "Go syntax error"

/-- Reads a source. -/
def read (parse : Parser) (text : List Char) (s : Settings) : Reading :=
  match parse text with
  | .error e => .failure e.issue
  | .ok items =>
    let info := GeneralInfo.ofComments (commentsOf items)
    let g := items.foldl (Gathering.add s info.basePath) ⟨startOf s info items, []⟩
    .success g.progress.draft.ast g.progress.warnings

/-- The errors of a source. -/
def check (parse : Parser) (text : List Char) : List Issue :=
  match parse text with
  | .ok _ => []
  | .error e => [e.issue]

end ApiCanon.Go
