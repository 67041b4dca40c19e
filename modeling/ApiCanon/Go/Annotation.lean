import ApiCanon.DocComment.Reader
import ApiCanon.Source.Route
import ApiCanon.Source.TypeName
import ApiCanon.Syntax.Token
import ApiCanon.Text.Search

/-!
# Types, tags and annotations of Go

The types of fields are names, perhaps of another package, pointers, lists, maps and interfaces.  A
pointer may be absent.  A tag is a text between backquotes that holds values under keys, as
`key:"value"`.

A line of a comment that begins with an at sign is an annotation: a name and a body.  Those in
front of a function say which endpoints it serves.

## Annotations of a function

| Annotation | Effect |
|-----|--------|
| `@Router /path [get,post]` | one endpoint for each verb |
| `@Summary`, `@Description`, `@ID`, `@Deprecated`, `@Tags a,b` | what they say |
| `@Accept json` | the media type of request bodies further down |
| `@Param name place type required "text"` | a parameter, or the request body |
| `@Success`, `@Failure`, `@Response` with `200 {object} Type "text"` | a response |

A path stands below the base path of the source, if the source has one.
-/

namespace ApiCanon.Go

/-! ## Types -/

/-- The type of a name; what stands in front of a point names its package. -/
def typeOfName (s : List Char) : TypeRef :=
  if s == "time.Time".toList then .primitive "string"
  else if s == "any".toList || Text.startsWith "interface".toList s then .any
  else typeRefFor (String.ofList (match Text.splitAtLast? (· == '.') s with
    | some (_, name) => name
    | none => s))

/-- The type of an expression; every step makes the expression shorter, so that its length bounds
`fuel`. -/
def typeFrom (fuel : Nat) (s : List Char) : TypeRef :=
  let s := Text.trim s
  match fuel with
  | 0 => .any
  | fuel + 1 =>
    match s with
    | '*' :: inner => typeFrom fuel inner
    | '[' :: r =>
      match Text.splitAtFirst? (· == ']') r with
      | some ([], item) =>
        if item == "byte".toList then .primitive "binary" else .array (typeFrom fuel item)
      | some (_, item) => .array (typeFrom fuel item)
      | none => typeOfName s
    | _ => if Text.startsWith "map[".toList s then .primitive "object" else typeOfName s

/-- Whether an expression is a pointer. -/
def isPointer (s : List Char) : Bool := (Text.trim s).head? == some '*'

/-- The type of an expression, and whether its value is optional. -/
def typeOf (s : List Char) : TypeRef × Bool := (typeFrom (s.length + 1) s, isPointer s)

/-! ## Tags -/

/-- The value under a key of a tag: what stands between quotes behind the key and a colon. -/
def tagValue? (tag key : List Char) : Option (List Char) := do
  let inside := Text.dropRightWhile (· == '\x60') (tag.dropWhile (· == '\x60'))
  let (_, rest) ← Text.splitFirst? (key ++ [':', '"']) inside
  let (value, _) ← Text.splitAtFirst? (· == '"') rest
  pure value

/-! ## Comments -/

/-- Drops a text in front as often as it is there; `fuel` is the number of characters. -/
def dropRepeated (pat : List Char) (fuel : Nat) (s : List Char) : List Char :=
  match fuel with
  | 0 => s
  | fuel + 1 =>
    match Text.stripPrefix? pat s with
    | some r => dropRepeated pat fuel r
    | none => s

/-- The text of a comment without its delimiters and without the stars in front of its lines. -/
def commentText (comment : List Char) : List Char :=
  match Text.stripPrefix? ['/', '/'] comment with
  | some line => Text.trim line
  | none =>
    let opened := dropRepeated ['/', '*'] comment.length comment
    let body := (dropRepeated ['/', '*'] opened.length opened.reverse).reverse
    Text.trim (['\n'].intercalate ((Text.lines body).map fun l =>
      Text.trim ((Text.trim l).dropWhile (· == '*'))))

/-- An annotation with its name as written. -/
structure Annotation where
  name : List Char
  body : List Char
  deriving DecidableEq, Repr, Inhabited

/-- The annotation of a line, if it is one. -/
def annotation? (line : List Char) : Option Annotation :=
  match line with
  | '@' :: r =>
    match Text.splitAtFirst? Text.isBlank r with
    | some (name, body) => some ⟨name, Text.trim body⟩
    | none => some ⟨r, []⟩
  | _ => none

/-- The trimmed lines of some comments. -/
def commentLines (texts : List (List Char)) : List (List Char) :=
  texts.flatMap fun t => (Text.lines t).map Text.trim

/-! ## The source as a whole -/

/-- What the comments say about the source as a whole. -/
structure GeneralInfo where
  title : Option String
  version : Option String
  basePath : Option (List Char)
  deriving DecidableEq, Repr, Inhabited

namespace GeneralInfo

/-- What is known with another annotation; a later one counts, and one without a body does not. -/
def add (i : GeneralInfo) (a : Annotation) : GeneralInfo :=
  if a.body.isEmpty then i
  else match String.ofList a.name with
    | "title" => { i with title := some (String.ofList a.body) }
    | "version" => { i with version := some (String.ofList a.body) }
    | "BasePath" => { i with basePath := some (Text.dropRightWhile (· == '/') a.body) }
    | _ => i

/-- What the annotations of some comments say. -/
def ofComments (texts : List (List Char)) : GeneralInfo :=
  ((commentLines texts).filterMap annotation?).foldl add ⟨none, none, none⟩

end GeneralInfo

/-! ## Parts of annotations -/

/-- The path and the verbs of a router annotation; there is at least one verb. -/
def route? (basePath : Option (List Char)) (body : List Char) :
    Option (String × List Method) := do
  let (path, rest) ← Text.splitAtFirst? Text.isBlank body
  let listed ← (Text.stripPrefix? ['['] (Text.trim rest)).bind (Text.stripSuffix? [']'])
  let methods := (Text.splitAll (· == ',') listed).filterMap fun m =>
    (Method.ofText? (String.ofList (Text.trim m))).filter Method.isHttp
  if methods.isEmpty then none
  else
    let full := match basePath with
      | some base => base ++ '/' :: path.dropWhile (· == '/')
      | none => path
    pure (String.ofList (Route.normalizeChars full), methods)

/-- The media type of a short name. -/
def mediaType (short : List Char) : String :=
  let name := String.ofList (Text.trim (short.takeWhile (· != ',')))
  match name with
  | "json" => "application/json"
  | "xml" => "application/xml"
  | "mpfd" => "multipart/form-data"
  | "x-www-form-urlencoded" => "application/x-www-form-urlencoded"
  | "plain" => "text/plain"
  | _ => name

/-- The text between the first pair of quotes, unless it is empty. -/
def quoted? (s : List Char) : Option String := do
  let (_, rest) ← Text.splitAtFirst? (· == '"') s
  let (value, _) ← Text.splitAtFirst? (· == '"') rest
  DocComment.textOf value

/-- What a parameter annotation declares. -/
inductive Input where
  | body (schema : TypeRef) (required : Bool) (description : Option String)
  | parameter (p : Parameter)
  deriving DecidableEq, Repr

/-- The input of a parameter annotation: a name, a place, a type and whether it is required. -/
def input? (body : List Char) : Option Input :=
  match Text.words body with
  | name :: place :: type :: required :: _ =>
    let required := Text.asciiLower (String.ofList required) == "true"
    let schema := (typeOf type).1
    let place := String.ofList place
    if place == "body" then some (.body schema required (quoted? body))
    else (Location.ofText? place).map fun l =>
      .parameter (((Parameter.plain (String.ofList name) l schema).withRequired
        required).withDescription (quoted? body))
  | _ => none

/-- The type of a response: a kind in braces with the name of the type behind it. -/
def responseType? (words : List (List Char)) : Option TypeRef :=
  match words with
  | [] => none
  | kind :: rest =>
    let name := rest.head?.filter fun t => t.head? != some '"'
    if kind.head? != some '\x7b' then none
    else match name with
      | some t =>
        if kind == "\x7barray\x7d".toList then some (.array (typeOf t).1) else some (typeOf t).1
      | none =>
        if kind == "\x7bstring\x7d".toList then some (.primitive "string") else none

/-- The response of an annotation; its status is a number or `default`. -/
def response? (body : List Char) : Option Response :=
  match Text.words body with
  | [] => none
  | status :: rest =>
    if status == "default".toList || status.all Char.isDigit then
      some { (Response.plain (String.ofList status)).withDescription (quoted? body) with
        schema := responseType? rest }
    else none

/-! ## Endpoints -/

/-- An endpoint under construction. -/
structure Handler where
  endpoint : Endpoint
  /-- The lines that are no annotations. -/
  plain : List String
  /-- The media type for request bodies. -/
  contentType : Option String
  warnings : List Issue

namespace Handler

def warn (h : Handler) (line : Nat) (message : String) : Handler :=
  { h with warnings := h.warnings ++ [⟨.ambiguous, message, some line⟩] }

/-- The handler with an input. -/
def addInput (h : Handler) : Input → Handler
  | .body schema required description =>
    { h with endpoint := { h.endpoint with
        requestBody := some
          ⟨h.contentType.getD jsonMediaType, description, required, schema⟩ } }
  | .parameter p =>
    { h with endpoint := { h.endpoint with parameters := h.endpoint.parameters ++ [p] } }

/-- The handler with what an annotation says.  The case of its name does not matter. -/
def apply (line : Nat) (h : Handler) (a : Annotation) : Handler :=
  let text := String.ofList a.body
  let e := h.endpoint
  match Text.asciiLower (String.ofList a.name) with
  | "summary" => { h with endpoint := { e with summary := some text } }
  | "description" =>
    let all := match e.description with
      | some before => before ++ "\n" ++ text
      | none => text
    { h with endpoint := { e with description := some all } }
  | "tags" => { h with endpoint := { e with tags := e.tags ++ DocComment.listedTags a.body } }
  | "id" => { h with endpoint := { e with operationId := some text } }
  | "deprecated" => { h with endpoint := { e with deprecated := true } }
  | "accept" => { h with contentType := some (mediaType a.body) }
  | "param" =>
    match input? a.body with
    | some i => h.addInput i
    | none => h.warn line s!"Malformed @Param '{text}'"
  | "success" | "failure" | "response" =>
    match response? a.body with
    | some r => { h with endpoint := { e with responses := e.responses ++ [r] } }
    | none => h.warn line s!"Malformed @{String.ofList a.name} '{text}'"
  | _ => h

/-- The handler with another line.  A line that ends in `godoc` only marks the comment. -/
def addLine (line : Nat) (h : Handler) (s : List Char) : Handler :=
  match annotation? s with
  | some a => h.apply line a
  | none =>
    if s.isEmpty || Text.endsWith "godoc".toList s then h
    else { h with plain := h.plain ++ [String.ofList s] }

/-- The endpoint; a plain line stands in for a missing summary. -/
def finished (h : Handler) : Endpoint :=
  { h.endpoint with summary := h.endpoint.summary <|> h.plain.head? }

end Handler

/-- The endpoints of one router annotation among the lines of a comment, with warnings. -/
def routeEndpoints (basePath : Option (List Char)) (line : Nat) (lines : List (List Char))
    (route : List Char) : List Endpoint × List Issue :=
  match route? basePath route with
  | none =>
    ([], [⟨.ambiguous, s!"Malformed @Router '{String.ofList route}'", some line⟩])
  | some (path, methods) =>
    let handlers := methods.map fun m =>
      lines.foldl (Handler.addLine line) ⟨Endpoint.plain m path, [], none, []⟩
    (handlers.map Handler.finished, handlers.flatMap Handler.warnings)

/-- The endpoints that the comments in front of a function declare, with warnings. -/
def endpoints (basePath : Option (List Char)) (line : Nat) (comments : List (List Char)) :
    List Endpoint × List Issue :=
  let lines := commentLines comments
  let routes := (lines.filterMap annotation?).filter fun a => a.name == "Router".toList
  let found := routes.map fun a => routeEndpoints basePath line lines a.body
  (found.flatMap (·.1), found.flatMap (·.2))

end ApiCanon.Go
