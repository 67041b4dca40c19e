import ApiCanon.Model.Endpoint
import ApiCanon.OpenApi.Schemas

/-!
# Operations of documents

An operation of a path with its parameters, its body and its responses.  Shared parts are put in
where they are referred to; a reference that leads nowhere is kept with the endpoint.

## Parameters

The parameters of a path hold for all its operations.  Of two parameters with the same name and
place the later one counts, so an operation overrides its path.
-/

namespace ApiCanon.OpenApi

open Json (Value Fields)

/-- Something built from a document, and the references that led nowhere on the way. -/
structure Built (α : Type) where
  value : α
  dangling : List String
  deriving Inhabited

/-- The fields that tell parameters apart. -/
def identity (param : Value) : Option String × Option String :=
  (param.stringField? "name", param.stringField? "in")

/-- Puts a parameter at the end, in place of one of the same identity. -/
def overrideParameter (params : List Value) (p : Value) : List Value :=
  (params.filter fun q => identity q != identity p) ++ [p]

/-- The parameters that hold for an operation, references resolved. -/
def effectiveParameters (doc : Value) (raw : List Value) : Built (List Value) :=
  raw.foldl (fun b p =>
    match resolve doc p with
    | .ok q => ⟨overrideParameter b.value q, b.dangling⟩
    | .error r => ⟨b.value, b.dangling ++ [r]⟩) ⟨[], []⟩

/-- A parameter, if it has a name and a known place. -/
def buildParameter? (v : Version) (raw : Value) : Option Parameter := do
  let name ← raw.stringField? "name"
  let location ← (raw.stringField? "in").bind Location.ofText?
  let type := match v with
    | .three => (schemaField? raw).getD .any
    | .two => typeOf raw
  pure (((Parameter.plain name location type).withRequired
    (raw.boolField "required" false)).withDescription (raw.stringField? "description"))

/-- Whether a parameter of the older generation is the body. -/
def isBodyParameter (v : Version) (raw : Value) : Bool :=
  v == .two && raw.stringField? "in" == some "body"

/-- The body that a parameter of the older generation stands for. -/
def bodyOfParameter (raw : Value) : RequestBody :=
  { RequestBody.json ((schemaField? raw).getD .any) (raw.boolField "required" false) with
    description := raw.stringField? "description" }

/-- The media type and the content preferred among several: JSON, else the first. -/
def preferredMedia? (raw : Value) : Option (String × Value) :=
  match (raw.get? "content").bind Value.asObject? with
  | none => none
  | some c =>
    match Fields.get? jsonMediaType c with
    | some m => some (jsonMediaType, m)
    | none => c.head?

/-- The body of a request object. -/
def buildBody (raw : Value) : RequestBody :=
  let media := preferredMedia? raw
  { contentType := (media.map (·.1)).getD jsonMediaType
    description := raw.stringField? "description"
    required := raw.boolField "required" false
    schema := ((media.map (·.2)).bind schemaField?).getD .any }

/-- The example of a content: its own, else the value of the first of several. -/
def mediaExample? (media : Value) : Option Value :=
  match media.get? "example" with
  | some e => some e
  | none =>
    match (media.get? "examples").bind Value.asObject? with
    | some ((_, e) :: _) => e.get? "value"
    | _ => none

/-- A response of a status. -/
def buildResponse (v : Version) (status : String) (raw : Value) : Response :=
  let media := (preferredMedia? raw).map (·.2)
  { status := status
    description := nonEmpty (raw.stringField? "description")
    schema := match v with
      | .three => media.bind schemaField?
      | .two => schemaField? raw
    example? := match v with
      | .three => media.bind mediaExample?
      | .two => raw.pointer? "/examples/application~1json".toList }

/-- The body of an operation. -/
def operationBody (doc : Value) (v : Version) (params : List Value) (operation : Value) :
    Built (Option RequestBody) :=
  match v with
  | .two => ⟨((params.filter (isBodyParameter v)).map bodyOfParameter).getLast?, []⟩
  | .three =>
    match operation.get? "requestBody" with
    | none => ⟨none, []⟩
    | some raw =>
      match resolve doc raw with
      | .ok b => ⟨some (buildBody b), []⟩
      | .error r => ⟨some (.json .any false), [r]⟩

/-- The responses of an operation. -/
def operationResponses (doc : Value) (v : Version) (operation : Value) : Built (List Response) :=
  let raw := ((operation.get? "responses").bind Value.asObject?).getD []
  let built := raw.map fun (status, r) =>
    match resolve doc r with
    | .ok t => (⟨buildResponse v status t, []⟩ : Built Response)
    | .error e => ⟨Response.plain status, [e]⟩
  ⟨built.map (·.value), built.flatMap (·.dangling)⟩

/-- An operation of a path. -/
def buildEndpoint (doc : Value) (v : Version) (method : Method) (path : String)
    (shared : List Value) (operation : Value) : Built Endpoint :=
  let own := ((operation.get? "parameters").bind Value.asArray?).getD []
  let params := effectiveParameters doc (shared ++ own)
  let body := operationBody doc v params.value operation
  let responses := operationResponses doc v operation
  let plain := params.value.filter fun p => !isBodyParameter v p
  ⟨{ Endpoint.plain method path with
      summary := operation.stringField? "summary"
      description := operation.stringField? "description"
      operationId := operation.stringField? "operationId"
      parameters := plain.filterMap (buildParameter? v)
      requestBody := body.value
      responses := responses.value
      tags := operation.stringsField "tags"
      deprecated := operation.boolField "deprecated" false },
    params.dangling ++ body.dangling ++ responses.dangling⟩

/-- The operations of a path, in the order of its fields. -/
def pathOperations (doc : Value) (v : Version) (path : String) (item : Fields) :
    List (Built Endpoint) :=
  let shared := ((Fields.get? "parameters" item).bind Value.asArray?).getD []
  item.filterMap fun (key, operation) =>
    (operationMethod? key).map fun m => buildEndpoint doc v m path shared operation

end ApiCanon.OpenApi
