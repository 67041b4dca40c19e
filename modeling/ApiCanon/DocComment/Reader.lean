import ApiCanon.Source.Reading
import ApiCanon.Source.Route
import ApiCanon.Source.TypeName
import ApiCanon.Text.Search

/-!
# Reading doc comments

A doc comment stands between `/**` and the next `*/`.  Its lines lose their stars and blanks; a line
that begins with `@` starts a tag, lines after it continue the tag, and the lines before the first
tag are the free text.

Comments alone describe the endpoints: what the tags of a comment say is about an endpoint, or about
a schema with its properties.  A source whose last comment is not closed is an error.

The expression in braces is a type: names, lists written as `T[]`, `Array<T>` or `Array.<T>`,
unions, and marks of what is optional.  A union stands for its only member that is not empty, or for
anything.

## Tags

| Tag | Effect |
|-----|--------|
| `@route verb path` | declares an endpoint |
| `@summary`, `@description` | texts; the free text stands in for them |
| `@param {type} [name] - text` | a parameter; a place and a point may precede its name |
| `@body {type} text` | the request body |
| `@returns {type} 200 - text` | a response |
| `@tags a, b`, `@deprecated`, `@operationId id` | what they say |
| `@typedef {Object} Name`, `@property {type} [name] - text` | a schema and its properties |
-/

namespace ApiCanon.DocComment

/-! ## Comments -/

/-- A tag: its name and what follows the name. -/
structure Tag where
  name : String
  body : List Char
  deriving DecidableEq, Repr, Inhabited

/-- A doc comment: its place in the source, its free text and its tags. -/
structure Block where
  start : Nat
  stop : Nat
  text : List Char
  tags : List Tag
  deriving DecidableEq, Repr, Inhabited

namespace Block

/-- The first tag of a name. -/
def tag? (b : Block) (name : String) : Option Tag := b.tags.find? fun t => t.name == name

/-- The tags with one of several names, in order. -/
def tagsNamed (b : Block) (names : List String) : List Tag :=
  b.tags.filter fun t => names.contains t.name

end Block

/-! ## Lines -/

/-- A line of a comment without its stars and the blanks around them. -/
def stripLine (line : List Char) : List Char :=
  Text.trim ((Text.trim line).dropWhile (· == '*'))

/-- The tag that a line starts, behind its `@`. -/
def tagOfLine (s : List Char) : Tag :=
  match Text.splitAtFirst? Text.isBlank s with
  | some (name, body) => ⟨String.ofList name, Text.trim body⟩
  | none => ⟨String.ofList s, []⟩

/-- The tag with one more line. -/
def Tag.extend (t : Tag) (line : List Char) : Tag :=
  if line.isEmpty then t
  else if t.body.isEmpty then { t with body := line }
  else { t with body := t.body ++ ' ' :: line }

/-- The tags of stripped lines; `current` is the tag under way. -/
def tagsOfLines (current : Tag) : List (List Char) → List Tag
  | [] => [current]
  | ('@' :: s) :: r => current :: tagsOfLines (tagOfLine s) r
  | line :: r => tagsOfLines (current.extend line) r

/-- The free text and the tags of stripped lines. -/
def splitLines : List (List Char) → List (List Char) × List Tag
  | [] => ([], [])
  | ('@' :: s) :: r => ([], tagsOfLines (tagOfLine s) r)
  | line :: r =>
    let (text, tags) := splitLines r
    (line :: text, tags)

/-- The comment with the given inside. -/
def ofInside (start stop : Nat) (inside : List Char) : Block :=
  let (text, tags) := splitLines ((Text.lines inside).map stripLine)
  ⟨start, stop, Text.trim (['\n'].intercalate text), tags⟩

/-! ## Blocks -/

/-- The comments of a text of which the first character stands at `place`.  `inside?` is the
place of the comment under way and its inside so far, reversed. -/
def blocksFrom (place : Nat) (inside? : Option (Nat × List Char)) : List Char → List Block
  | [] => []
  | c :: r =>
    match inside?, c, r with
    | some (start, inside), '*', '/' :: r =>
      ofInside start (place + 2) inside.reverse :: blocksFrom (place + 2) none r
    | some (start, inside), c, r => blocksFrom (place + 1) (some (start, c :: inside)) r
    | none, '/', '*' :: '*' :: r => blocksFrom (place + 3) (some (place, [])) r
    | none, _, r => blocksFrom (place + 1) none r

/-- The doc comments of a source. -/
def blocks (text : List Char) : List Block := blocksFrom 0 none text

/-- The line of a place in a source. -/
def lineAt (text : List Char) (place : Nat) : Nat := lineAfter (text.take place)

/-- The line of the last opening of a comment, if nothing closes one from there on. -/
def unterminatedLine? (text : List Char) : Option Nat :=
  match Text.splitLast? ['/', '*', '*'] text with
  | none => none
  | some (before, after) =>
    if Text.contains ['*', '/'] ('*' :: '*' :: after) then none else some (lineAfter before)

/-- The error about a comment that is not closed. -/
def unterminatedError? (text : List Char) : Option Issue :=
  (unterminatedLine? text).map fun line => .parseErrorAt line "Unterminated block comment"

/-! ## Types -/

/-- The item of a list written in angle brackets. -/
def angleItem? (s : List Char) : Option (List Char) :=
  let item (opening : String) :=
    (Text.stripPrefix? opening.toList s).bind (Text.stripSuffix? ['>'])
  item "Array.<" <|> item "Array<"

/-- The members of a union that are not empty values. -/
def unionMembers (s : List Char) : List (List Char) :=
  ((Text.splitAll (· == '|') s).map Text.trim).filter fun m =>
    m != "null".toList && m != "undefined".toList

/-- The type of an expression; every step makes the expression shorter, so that its length bounds
`fuel`. -/
def typeFrom (fuel : Nat) (s : List Char) : TypeRef :=
  let s := Text.trim s
  match fuel with
  | 0 => .any
  | fuel + 1 =>
    match Text.stripSuffix? ['[', ']'] s with
    | some item => .array (typeFrom fuel item)
    | none =>
      match angleItem? s with
      | some item => .array (typeFrom fuel item)
      | none =>
        if s.contains '|' then
          match unionMembers s with
          | [m] => typeFrom fuel m
          | _ => .any
        else typeRefFor (String.ofList s)

/-- The expression without the marks of what is optional, and whether there are any. -/
def stripOptional (s : List Char) : List Char × Bool :=
  let s := Text.trim s
  let (s, o) := match Text.stripSuffix? ['='] s with
    | some t => (t, true)
    | none => (s, false)
  match s with
  | '?' :: t => (t, true)
  | t => (t, o)

/-- The type of an expression, and whether its value is optional. -/
def typeOf (s : List Char) : TypeRef × Bool :=
  let (t, optional) := stripOptional s
  (typeFrom (t.length + 1) t, optional)

/-! ## Bodies of tags -/

/-- The type in braces in front of a text, and the rest. -/
def splitType (body : List Char) : Option (List Char) × List Char :=
  let body := Text.trim body
  match body with
  | '\x7b' :: r =>
    match Text.splitAtFirst? (· == '\x7d') r with
    | some (t, rest) => (some (Text.trim t), Text.trim rest)
    | none => (none, body)
  | _ => (none, body)

/-- A text unless it is empty. -/
def textOf (s : List Char) : Option String :=
  if s.isEmpty then none else some (String.ofList s)

/-- A text without the dashes in front. -/
def dropDashes (s : List Char) : List Char := Text.trim ((Text.trim s).dropWhile (· == '-'))

/-- The first word of a text, and the description behind it. -/
def splitName (s : List Char) : List Char × Option String :=
  let s := Text.trim s
  match Text.splitAtFirst? Text.isBlank s with
  | some (name, rest) => (name, textOf (dropDashes rest))
  | none => (s, none)

/-- A name in square brackets is optional; a default behind an equals sign is dropped. -/
def splitBrackets (name : List Char) : List Char × Bool :=
  match name with
  | '[' :: r =>
    match Text.stripSuffix? [']'] r with
    | some inside => (inside.takeWhile (· != '='), true)
    | none => (name, false)
  | _ => (name, false)

/-- The type of a tag, and whether it marks an optional value; nothing known without one. -/
def typeOrAny (t : Option (List Char)) : TypeRef × Bool :=
  match t with
  | some t => typeOf t
  | none => (.any, false)

/-- The place and the name of a parameter: a place may be written in front of a point; else a
placeholder of the path is in the path and any other name in the query. -/
def placeOf? (placeholders : List String) (name : List Char) : Option (Location × List Char) :=
  match Text.splitAtFirst? (· == '.') name with
  | some (place, field) => (Location.ofText? (String.ofList place)).map fun l => (l, field)
  | none =>
    if placeholders.contains (String.ofList name) then some (.path, name)
    else some (.query, name)

/-- The parameter of a tag, if it has a name and a known place. -/
def parameter? (placeholders : List String) (body : List Char) : Option Parameter := do
  let (t, rest) := splitType body
  let (name, description) := splitName rest
  let (schema, optionalType) := typeOrAny t
  let (name, bracketed) := splitBrackets name
  if name.isEmpty then none
  else
    let (location, name) ← placeOf? placeholders name
    let schema := if location = .body then .any else schema
    pure (((Parameter.plain (String.ofList name) location schema).withRequired
      !(optionalType || bracketed)).withDescription description)

/-- The request body of a tag. -/
def requestBody (body : List Char) : RequestBody :=
  let (t, rest) := splitType body
  let (schema, optional) := typeOrAny t
  { RequestBody.json schema (!optional) with description := textOf rest }

/-- The response of a tag; its status is a number in front, or else 200. -/
def response (body : List Char) : Response :=
  let (t, rest) := splitType body
  let (first, description) := splitName rest
  let schema := t.map fun t => (typeOf t).1
  if !first.isEmpty && first.all Char.isDigit then
    ⟨String.ofList first, nonEmpty description, schema, none⟩
  else ⟨"200", textOf (dropDashes rest), schema, none⟩

/-- The tags listed in a tag, at commas. -/
def listedTags (body : List Char) : List String :=
  (((Text.splitAll (· == ',') body).map Text.trim).filter fun t => !t.isEmpty).map String.ofList

/-- A text on one line. -/
def joinLines (s : List Char) : List Char := s.map fun c => if c = '\n' then ' ' else c

/-- The summary and the description of a free text: its first paragraph and the rest. -/
def splitParagraphs (text : List Char) : Option String × Option String :=
  match Text.splitFirst? ['\n', '\n'] text with
  | some (lead, rest) => (textOf (joinLines lead), some (String.ofList (Text.trim rest)))
  | none => (textOf (joinLines text), none)

/-- The body of the first tag of a name. -/
def tagText? (b : Block) (name : String) : Option String :=
  (b.tag? name).map fun t => String.ofList t.body

/-- What a comment adds to an endpoint. -/
def apply (b : Block) (e : Endpoint) : Endpoint :=
  let (summary, description) := splitParagraphs b.text
  let placeholders := pathParameters e.path
  { e with
    summary := tagText? b "summary" <|> summary
    description := nonEmpty (tagText? b "description" <|> description)
    operationId := tagText? b "operationId"
    deprecated := (b.tag? "deprecated").isSome
    tags := e.tags ++ (b.tagsNamed ["tags", "tag"]).flatMap fun t => listedTags t.body
    parameters := e.parameters ++
      (b.tagsNamed ["param", "arg", "argument"]).filterMap fun t => parameter? placeholders t.body
    requestBody := ((b.tag? "body").map fun t => requestBody t.body) <|> e.requestBody
    responses := e.responses ++
      (b.tagsNamed ["returns", "return", "response"]).map fun t => response t.body }

/-! ## Schemas -/

/-- The property of a tag with its name, if it has one. -/
def property? (body : List Char) : Option (String × Property) :=
  let (t, rest) := splitType body
  let (name, description) := splitName rest
  let (type, optionalType) := typeOrAny t
  let (name, bracketed) := splitBrackets name
  if name.isEmpty then none
  else some (String.ofList name, ⟨type, nonEmpty description, !(optionalType || bracketed)⟩)

/-- The schema that a comment defines, if it does. -/
def typedef? (b : Block) : Option Schema := do
  let tag ← b.tag? "typedef"
  let name ← (Text.words (splitType tag.body).2).head?
  pure
    { name := String.ofList name
      description := textOf b.text
      properties := .ofList ((b.tagsNamed ["property", "prop"]).filterMap fun t =>
        property? t.body)
      enumValues := [] }

/-- Adds the schema that a comment defines, unless one of its name is there. -/
def addTypedef (text : List Char) (p : Progress) (b : Block) : Progress :=
  match typedef? b with
  | none => p
  | some x => p.addSchema "typedef" (some (lineAt text b.start)) x

/-! ## Sources -/

/-- The verb and the path of a route tag. -/
def splitRoute (body : List Char) : List Char × List Char :=
  match Text.splitAtFirst? Text.isBlank body with
  | some (verb, path) => (verb, Text.trim path)
  | none => (body, [])

/-- Adds the endpoint that a comment declares, if it does. -/
def addRoute (text : List Char) (s : Settings) (p : Progress) (b : Block) : Progress :=
  match b.tag? "route" with
  | none => p
  | some tag =>
    let line := lineAt text b.start
    let (verb, path) := splitRoute tag.body
    match Method.ofText? (String.ofList verb) with
    | none =>
      p.warn ⟨.ambiguous, s!"Unrecognized @route method '{String.ofList verb}'", some line⟩
    | some m =>
      if path.isEmpty then p.warn ⟨.ambiguous, "@route without a path", some line⟩
      else
        p.addEndpoint s line
          (apply b (Endpoint.plain m (String.ofList (Route.normalizeChars path))))

/-- Reads a source. -/
def read (text : List Char) (s : Settings) : Reading :=
  match unterminatedError? text with
  | some e => .failure e
  | none =>
    let bs := blocks text
    let p := bs.foldl (addRoute text s) (.start SourceKind.jsDoc.tag s)
    let p := bs.foldl (addTypedef text) p
    .success p.draft.ast p.warnings

/-- The errors of a source. -/
def check (text : List Char) : List Issue := (unterminatedError? text).toList

end ApiCanon.DocComment
