import ApiCanon.Python.Docstring
import ApiCanon.Python.Lexis
import ApiCanon.Python.Program
import ApiCanon.Python.TypeExpr
import ApiCanon.Source.Reading
import ApiCanon.Source.Route

/-!
# Calls and routes

A call is taken by the text of its function, with its arguments by position and by name.  Of two
arguments of one name the last counts.

A function with a decorator that is a call of a verb, or of a route, serves an endpoint.  Its
parameters are those of the endpoint; the call of a marker such as `Query` in the place of a default
says where a parameter is carried.  What the call of the route does not say is taken from the
docstring.
-/

namespace ApiCanon.Python

/-! ## Calls -/

/-- A call. -/
structure Call where
  callee : List Char
  positional : List Expr
  keywords : List (String × Expr)

/-- The call that an expression is, if it is one. -/
def call? : Expr → Option Call
  | .call _ f arguments => some
    { callee := f.text.toList
      positional := arguments.filterMap fun
        | .positional v => some v
        | .keyword _ _ _ => none
      keywords := arguments.filterMap fun
        | .positional _ => none
        | .keyword _ name v => some (name, v) }
  | _ => none

/-- The text of a literal. -/
def stringValue? : Expr → Option String
  | .string t => literalValue? t
  | _ => none

namespace Call

/-- The name of the function, without what it is a part of. -/
def shortName (c : Call) : String := String.ofList (afterLastPoint c.callee)

/-- The argument of a name. -/
def keyword? (c : Call) (name : String) : Option Expr :=
  (c.keywords.reverse.find? fun k => k.1 == name).map (·.2)

/-- The text of a literal given under a name. -/
def keywordString? (c : Call) (name : String) : Option String :=
  (c.keyword? name).bind stringValue?

/-- The source of what is given under a name. -/
def keywordText? (c : Call) (name : String) : Option String := (c.keyword? name).map Expr.text

/-- The literals in the list given under a name. -/
def keywordStrings (c : Call) (name : String) : List String :=
  match c.keyword? name with
  | some e => e.parts.filterMap stringValue?
  | none => []

/-- Whether the call of a marker leaves a value required: there is no default, or an ellipsis in
its place. -/
def leavesRequired (c : Call) : Bool :=
  match c.keyword? "default" <|> c.positional.head? with
  | none => true
  | some e => e.text == "..."

end Call

/-- The text of the literal that a body begins with. -/
def docstring? : List Stmt → Option String
  | .expression (e :: _) :: _ => stringValue? e
  | _ => none

/-! ## Prefixes -/

/-- The prefix that a statement gives to a router, with the name of the router. -/
def routerPrefix? : Stmt → Option (String × String)
  | .assignment (some name) _ (some value) => do
    let c ← call? value
    let path ← match c.shortName with
      | "APIRouter" => c.keywordString? "prefix"
      | "Blueprint" => c.keywordString? "url_prefix"
      | _ => none
    pure (name, path)
  | _ => none

/-- The prefixes of the routers of a program. -/
def routerPrefixes (program : List Stmt) : SortedMap String :=
  .ofList (program.filterMap routerPrefix?)

/-- A path behind a prefix, with one slash between them. -/
def joinPath (before? : Option String) (path : List Char) : List Char :=
  match before? with
  | some p => Text.dropRightWhile (· == '/') p.toList ++ '/' :: path.dropWhile (· == '/')
  | none => path

/-! ## Decorators -/

/-- What a decorator declares: verbs at a path. -/
structure Declaration where
  line : Nat
  methods : List Method
  path : String
  call : Call

/-- What a decorator declares, if it is a route. -/
def declaration? (prefixes : SortedMap String) (d : Decorator) : Option Declaration := do
  let c ← call? d.expr
  let (receiver, verb) ← Text.splitAtLast? (· == '.') c.callee
  let path ← (c.positional.head?.bind stringValue?) <|> c.keywordString? "path" <|>
    c.keywordString? "rule"
  let verb := String.ofList verb
  let methods ←
    if verb == "route" || verb == "api_route" then
      let declared := c.keywordStrings "methods"
      some (if declared.isEmpty then [.get] else declared.filterMap Method.ofText?)
    else ((Method.ofText? verb).filter Method.isHttp).map fun m => [m]
  let full := joinPath (prefixes.get? (String.ofList receiver)) path.toList
  pure ⟨d.line, methods, String.ofList (Route.normalizeChars full), c⟩

/-! ## Parameters -/

/-- Where a parameter is carried, and whether it is required; no place means the body. -/
structure Placement where
  location? : Option Location
  required : Bool
  deriving DecidableEq, Repr

/-- The placement that a marker asks for, if it is one. -/
def markerPlacement? (c : Call) : Option Placement :=
  let required := c.leavesRequired
  match c.shortName with
  | "Path" => some ⟨some .path, true⟩
  | "Query" => some ⟨some .query, required⟩
  | "Header" => some ⟨some .header, required⟩
  | "Cookie" => some ⟨some .cookie, required⟩
  | "Body" | "Form" | "File" => some ⟨none, required⟩
  | _ => none

/-- Whether a marker stands for what the framework hands over. -/
def isInjected (c : Call) : Bool := c.shortName == "Depends" || c.shortName == "Security"

/-- The placement of a parameter without a marker: in the path if it is one of the placeholders, in
the body if its type is a schema, and else in the query.  One without type and default is not a
parameter of the endpoint. -/
def plainPlacement? (placeholders : List String) (f : Formal) (type : TypeRef) :
    Option Placement :=
  if placeholders.contains f.name then some ⟨some .path, true⟩
  else if f.annotation?.isNone && f.default?.isNone then none
  else if type.referencedName?.isSome && f.default?.isNone then some ⟨none, true⟩
  else some ⟨some .query, f.default?.isNone⟩

/-- The placement of a parameter of a function, if it belongs to the endpoint. -/
def placement? (placeholders : List String) (f : Formal) (type : TypeRef) : Option Placement :=
  match f.default?.bind call? with
  | some c =>
    if isInjected c then none
    else markerPlacement? c <|> plainPlacement? placeholders f type
  | none => plainPlacement? placeholders f type

/-- The name of a header that a parameter stands for. -/
def headerName (name : String) : String := name.map fun c => if c = '_' then '-' else c

/-- The endpoint with a parameter of its function.  The first one without a place is the body. -/
def addFormal (placeholders : List String) (doc : Docstring) (e : Endpoint) (f : Formal) :
    Endpoint :=
  let (type, nullable) := match f.annotation? with
    | some a => typeOf a
    | none => (.any, false)
  if f.name == "self" || f.name == "cls" then e
  else match placement? placeholders f type with
    | none => e
    | some place =>
      let marker? := f.default?.bind call?
      let required := place.required && !nullable
      let description :=
        (marker?.bind fun c => c.keywordString? "description") <|> doc.arguments.get? f.name
      let written := if place.location? = some .header then headerName f.name else f.name
      let name := (marker?.bind fun c => c.keywordString? "alias").getD written
      let parameter (l : Location) : Endpoint :=
        let p := ((Parameter.plain name l type).withRequired required).withDescription description
        { e with parameters := e.parameters ++ [p] }
      match place.location?, e.requestBody with
      | some l, _ => parameter l
      | none, none =>
        let body := { RequestBody.json type required with description := description }
        { e with requestBody := some body }
      | none, some _ => parameter .body

/-! ## Endpoints -/

/-- The last number among the parts of a status between underscores, or else the whole. -/
def statusOf (text : String) : String :=
  let s := text.toList
  let part := ((Text.splitAll (· == '_') s).reverse.find? fun p => p.all Char.isDigit).getD s
  if !part.isEmpty && part.all Char.isDigit then String.ofList part else "200"

/-- The endpoint that a decorated function serves. -/
def endpoint (d : Declaration) (method : Method) (name : String) (formals : List Formal)
    (returns? : Option String) (body : List Stmt) : Endpoint :=
  let c := d.call
  let doc := match docstring? body with
    | some t => Docstring.ofText t
    | none => Docstring.empty
  let schema := ((c.keywordText? "response_model" <|> returns?).map fun t => (typeOf t).1).filter
    (· != .primitive "null")
  let status := match c.keywordText? "status_code" with
    | some t => statusOf t
    | none => "200"
  let e :=
    { Endpoint.plain method d.path with
      summary := c.keywordString? "summary" <|> doc.summary
      description := c.keywordString? "description" <|> doc.description
      operationId := c.keywordString? "operation_id" <|> some name
      tags := c.keywordStrings "tags"
      deprecated := c.keywordText? "deprecated" == some "True"
      responses :=
        [{ (Response.plain status).withDescription doc.returns with schema := schema }] }
  fillPathParameters doc.arguments.get?
    (formals.foldl (addFormal (pathParameters d.path) doc) e)

/-- The declarations of a statement with the endpoints of each. -/
def declared (prefixes : SortedMap String) : Stmt → List (Declaration × List Endpoint)
  | .decorated decorators (.function name formals returns? body) =>
    (decorators.filterMap (declaration? prefixes)).map fun d =>
      (d, d.methods.map fun m => endpoint d m name formals returns? body)
  | _ => []

/-- The declarations of a program with the endpoints of each. -/
def declarations (program : List Stmt) : List (Declaration × List Endpoint) :=
  (allOf program).flatMap (declared (routerPrefixes program))

end ApiCanon.Python
