import ApiCanon.Json.Value
import ApiCanon.Model.Names
import ApiCanon.Model.Schema

/-!
# Endpoints

An operation at a path, with its parameters, its body and its responses.  Verb and path together
are its key; a parameter in the path is always required.
-/

namespace ApiCanon

/-- The media type of a body unless the source says otherwise. -/
def jsonMediaType : String := "application/json"

/-- A parameter of an operation. -/
structure Parameter where
  name : String
  location : Location
  required : Bool
  description : Option String
  schema : TypeRef
  deriving DecidableEq, Repr, Inhabited

namespace Parameter

/-- A parameter that is required exactly in the path. -/
def plain (name : String) (location : Location) (schema : TypeRef) : Parameter :=
  ⟨name, location, location == .path, none, schema⟩

/-- The parameter made required or optional, as far as its place admits. -/
def withRequired (p : Parameter) (required : Bool) : Parameter :=
  { p with required := required || p.location == .path }

def withDescription (p : Parameter) (d : Option String) : Parameter :=
  { p with description := nonEmpty d }

end Parameter

/-- The body of a request. -/
structure RequestBody where
  contentType : String
  description : Option String
  required : Bool
  schema : TypeRef
  deriving DecidableEq, Repr, Inhabited

/-- A body in JSON. -/
def RequestBody.json (schema : TypeRef) (required : Bool) : RequestBody :=
  ⟨jsonMediaType, none, required, schema⟩

/-- A response to a request. -/
structure Response where
  /-- The status as the source writes it. -/
  status : String
  description : Option String
  schema : Option TypeRef
  example? : Option Json.Value
  deriving Repr, Inhabited

namespace Response

/-- A response with nothing but its status. -/
def plain (status : String) : Response := ⟨status, none, none, none⟩

def withDescription (r : Response) (d : Option String) : Response :=
  { r with description := nonEmpty d }

/-- Equality, with examples compared as documents. -/
def same (a b : Response) : Bool :=
  a.status == b.status && a.description == b.description && a.schema == b.schema &&
    (match a.example?, b.example? with
      | some v, some w => v.same w
      | none, none => true
      | _, _ => false)

end Response

/-- The identity of an endpoint. -/
structure EndpointKey where
  method : Method
  path : String
  deriving DecidableEq, Repr, Inhabited

/-- The verb, a blank and the path. -/
def EndpointKey.text (k : EndpointKey) : String := k.method.text ++ " " ++ k.path

/-- The order of keys: by verb, then by path. -/
def EndpointKey.le (a b : EndpointKey) : Bool :=
  a.method.rank < b.method.rank || (a.method == b.method && a.path ≤ b.path)

/-- An operation at a path. -/
structure Endpoint where
  method : Method
  path : String
  summary : Option String
  description : Option String
  operationId : Option String
  parameters : List Parameter
  requestBody : Option RequestBody
  responses : List Response
  tags : List String
  deprecated : Bool
  /-- A description written later; no source gives it. -/
  enhancedDescription : Option String
  deriving Repr, Inhabited

namespace Endpoint

/-- An endpoint with nothing but its key. -/
def plain (method : Method) (path : String) : Endpoint where
  method := method
  path := path
  summary := none
  description := none
  operationId := none
  parameters := []
  requestBody := none
  responses := []
  tags := []
  deprecated := false
  enhancedDescription := none

def key (e : Endpoint) : EndpointKey := ⟨e.method, e.path⟩

/-- How an endpoint is named in reports. -/
def locator (e : Endpoint) : String := e.key.text

/-- The group of an endpoint: its first tag. -/
def group? (e : Endpoint) : Option String := e.tags.head?

def parameter? (e : Endpoint) (name : String) (location : Location) : Option Parameter :=
  e.parameters.find? fun p => p.name == name && p.location == location

def response? (e : Endpoint) (status : String) : Option Response :=
  e.responses.find? fun r => r.status == status

/-- The schemas that an endpoint refers to: by its parameters, its body and its responses. -/
def referencedNames (e : Endpoint) : List String :=
  e.parameters.filterMap (·.schema.referencedName?) ++
    (e.requestBody.bind (·.schema.referencedName?)).toList ++
    e.responses.filterMap fun r => r.schema.bind (·.referencedName?)

/-- Whether two lists of responses agree one by one. -/
def sameResponses : List Response → List Response → Bool
  | [], [] => true
  | a :: r, b :: s => a.same b && sameResponses r s
  | _, _ => false

/-- Equality, with examples compared as documents. -/
def same (a b : Endpoint) : Bool :=
  a.method == b.method && a.path == b.path && a.summary == b.summary &&
    a.description == b.description && a.operationId == b.operationId &&
    a.parameters == b.parameters && a.requestBody == b.requestBody &&
    sameResponses a.responses b.responses && a.tags == b.tags && a.deprecated == b.deprecated &&
    a.enhancedDescription == b.enhancedDescription

end Endpoint

/-! ## Placeholders -/

/-- The names between braces; `open?` is the name under way, reversed, behind an opening brace. -/
def placeholdersFrom (name? : Option (List Char)) : List Char → List (List Char)
  | [] => []
  | c :: r =>
    match name? with
    | none => placeholdersFrom (if c == '\x7b' then some [] else none) r
    | some name =>
      if c == '\x7d' then
        if name.isEmpty then placeholdersFrom none r
        else name.reverse :: placeholdersFrom none r
      else placeholdersFrom (some (c :: name)) r

/-- The names of the placeholders of a path, in order; empty ones do not count. -/
def pathParameters (path : String) : List String :=
  (placeholdersFrom none path.toList).map String.ofList

end ApiCanon
