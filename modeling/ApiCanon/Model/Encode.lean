import ApiCanon.Model.Ast

/-!
# JSON form of descriptions

An endpoint, a schema and a whole description as JSON values.  A field that is absent is left
out; lists, truth values and the properties of a schema are always written, except that tags,
enumerated texts and extra values are left out when there are none.
-/

namespace ApiCanon

open Json (Value Fields)

/-- A text field, if it is there. -/
def textField (key : String) (s : Option String) : Fields :=
  match s with
  | some s => [(key, .string s)]
  | none => []

/-- A list of texts, if it is not empty. -/
def textsField (key : String) (l : List String) : Fields :=
  if l.isEmpty then [] else [(key, .array (l.map .string))]

def Method.toJson (m : Method) : Value := .string m.text

def Location.toJson (l : Location) : Value := .string l.text

def TypeRef.toJson : TypeRef → Value
  | .named n => .object [("kind", .string "named"), ("name", .string n)]
  | .primitive n => .object [("kind", .string "primitive"), ("name", .string n)]
  | .array t => .object [("kind", .string "array"), ("items", t.toJson)]

def Property.toJson (p : Property) : Value :=
  .object <| [("type", p.type.toJson)] ++ textField "description" p.description ++
    [("required", .bool p.required)]

def Schema.toJson (s : Schema) : Value :=
  .object <| [("name", .string s.name)] ++ textField "description" s.description ++
    [("properties", .object (s.properties.entries.map fun (k, p) => (k, p.toJson)))] ++
    textsField "enum_values" s.enumValues

def Parameter.toJson (p : Parameter) : Value :=
  .object <| [("name", .string p.name), ("location", p.location.toJson),
      ("required", .bool p.required)] ++
    textField "description" p.description ++ [("schema", p.schema.toJson)]

def RequestBody.toJson (b : RequestBody) : Value :=
  .object <| [("content_type", .string b.contentType)] ++
    textField "description" b.description ++
    [("required", .bool b.required), ("schema", b.schema.toJson)]

def Response.toJson (r : Response) : Value :=
  .object <| [("status", .string r.status)] ++ textField "description" r.description ++
    (match r.schema with
      | some t => [("schema", t.toJson)]
      | none => []) ++
    (match r.example? with
      | some v => [("example", v)]
      | none => [])

def Endpoint.toJson (e : Endpoint) : Value :=
  .object <| [("method", e.method.toJson), ("path", .string e.path)] ++
    textField "summary" e.summary ++ textField "description" e.description ++
    textField "operationId" e.operationId ++
    [("parameters", .array (e.parameters.map Parameter.toJson))] ++
    (match e.requestBody with
      | some b => [("requestBody", b.toJson)]
      | none => []) ++
    [("responses", .array (e.responses.map Response.toJson))] ++ textsField "tags" e.tags ++
    [("deprecated", .bool e.deprecated)] ++ textField "enhancedDescription" e.enhancedDescription

def Metadata.toJson (m : Metadata) : Value :=
  .object <| [("sourceType", .string m.sourceType)] ++ textField "projectName" m.projectName ++
    textField "projectVersion" m.projectVersion ++
    textField "parsedAt" (m.parsedAt.map Timestamp.text) ++
    (if m.extra.isEmpty then [] else [("extra", .object m.extra.entries)])

def Ast.toJson (a : Ast) : Value :=
  .object [("endpoints", .array (a.endpoints.map Endpoint.toJson)),
    ("schemas", .object (a.schemas.entries.map fun (k, s) => (k, s.toJson))),
    ("metadata", a.metadata.toJson), ("unresolved", .bool a.unresolved)]

end ApiCanon
