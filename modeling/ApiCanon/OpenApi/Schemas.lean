import ApiCanon.Json.Printer
import ApiCanon.Json.Value
import ApiCanon.Model.Names
import ApiCanon.Model.Schema
import ApiCanon.Source.TypeName

/-!
# Documents and their schemas

The two generations of API documents and what they have in common: a version, servers, and
references from one part of the document to another.

A schema object stands for a type, and a document has named schemas with the properties of all the
parts that they are composed of.
-/

namespace ApiCanon.OpenApi

open Json (Value Fields)

/-! ## Generations -/

/-- The generation of a document. -/
inductive Version where
  | two
  | three
  deriving DecidableEq, Repr, Inhabited

/-- The generation as noted in the description. -/
def Version.label : Version → String
  | two => "2.0"
  | three => "3.x"

/-- The text of a version; an unquoted one may have been read as a number. -/
def versionText? : Value → Option String
  | .string s => some s
  | .number n => some n.text
  | _ => none

/-- Why a document has no usable version. -/
inductive VersionFault where
  | rootNotObject
  | unsupportedOpenApi (version : String)
  | unsupportedSwagger (version : String)
  | missing
  deriving DecidableEq, Repr

def VersionFault.message : VersionFault → String
  | rootNotObject => "Document root is not an object"
  | unsupportedOpenApi v => "Unsupported OpenAPI version: " ++ v
  | unsupportedSwagger v => "Unsupported Swagger version: " ++ v
  | missing => "Missing 'openapi' or 'swagger' version field"

/-- The generation of a document: by its `openapi` field, else by its `swagger` field. -/
def versionOf (doc : Value) : Except VersionFault Version :=
  match doc with
  | .object _ =>
    match (doc.get? "openapi").bind versionText? with
    | some v =>
      if Text.startsWith ['3'] v.toList then .ok .three else .error (.unsupportedOpenApi v)
    | none =>
      match (doc.get? "swagger").bind versionText? with
      | some v =>
        if Text.startsWith ['2'] v.toList then .ok .two else .error (.unsupportedSwagger v)
      | none => .error .missing
  | _ => .error .rootNotObject

/-- The servers of a document: their addresses, or the host with the base path. -/
def servers? (doc : Value) : Version → Option Value
  | .three =>
    match (doc.get? "servers").bind Value.asArray? with
    | some l =>
      let urls := l.filterMap fun s => s.get? "url"
      if urls.isEmpty then none else some (.array urls)
    | none => none
  | .two =>
    (doc.stringField? "host").map fun host =>
      .array [.string (host ++ (doc.stringField? "basePath").getD "")]

/-- The HTTP verb that a field of a path names. -/
def operationMethod? (key : String) : Option Method := (Method.ofText? key).filter Method.isHttp

/-! ## References -/

/-- The last segment of a reference. -/
def referenceName (reference : String) : String :=
  match Text.splitAtLast? (· == '/') reference.toList with
  | some (_, name) => String.ofList name
  | none => reference

/-- The part of the document that a value stands for: itself, or what its reference leads to.
A reference that leads nowhere is given back. -/
def resolve (doc v : Value) : Except String Value :=
  match v.stringField? "$ref" with
  | none => .ok v
  | some reference =>
    match (Text.stripPrefix? ['#'] reference.toList).bind doc.pointer? with
    | some target => .ok target
    | none => .error reference

/-! ## Types -/

/-- The type of a schema object that neither refers nor wraps another: by its `type` field.
`items` is the type of its items, if it has any. -/
def plainType (f : Fields) (items : Option TypeRef) : TypeRef :=
  match (Fields.get? "type" f).bind Value.asString? with
  | some "array" => .array (items.getD .any)
  | some "string" =>
    if (Fields.get? "format" f).bind Value.asString? = some "binary" then .primitive "binary"
    else .primitive "string"
  | some "file" => .primitive "binary"
  | some t => .primitive ((primitiveOf? t).getD "any")
  | none => if (Fields.get? "properties" f).isSome then .primitive "object" else .any

mutual
/-- The type that a schema object stands for: what it refers to, else what it wraps as the only
part of a combination, else what it says itself. -/
def typeOf : Value → TypeRef
  | .object f =>
    match (Fields.get? "$ref" f).bind Value.asString? with
    | some reference => .named (referenceName reference)
    | none =>
      match onlyPartAt "allOf" f <|> onlyPartAt "oneOf" f <|> onlyPartAt "anyOf" f with
      | some t => t
      | none => plainType f (typeAt "items" f)
  | _ => .any

/-- The type of the schema object in a field. -/
def typeAt (key : String) : List (String × Value) → Option TypeRef
  | [] => none
  | (k, v) :: r => if k = key then some (typeOf v) else typeAt key r

/-- The type of the only item of a list in a field. -/
def onlyPartAt (key : String) : List (String × Value) → Option TypeRef
  | [] => none
  | (k, v) :: r => if k = key then onlyPart v else onlyPartAt key r

/-- The type of the only item of a list. -/
def onlyPart : Value → Option TypeRef
  | .array [v] => some (typeOf v)
  | _ => none
end

/-- The type of the schema object in the `schema` field. -/
def schemaField? (v : Value) : Option TypeRef := (v.get? "schema").map typeOf

/-! ## Composition -/

mutual
/-- Adds the properties of a schema object and of all its parts; a later one of the same name
counts. -/
def collectProperties (into : Fields) : Value → Fields
  | .object f => collectFromParts (ownProperties into f) f
  | _ => into

/-- Adds the properties that an object has itself. -/
def ownProperties (into : Fields) (f : List (String × Value)) : Fields :=
  match Fields.get? "properties" f with
  | some (.object props) => props.foldl (fun m (k, v) => m.put k v) into
  | _ => into

/-- Adds the properties of the parts in the `allOf` field. -/
def collectFromParts (into : Fields) : List (String × Value) → Fields
  | [] => into
  | (k, v) :: r => if k = "allOf" then collectFromList into v else collectFromParts into r

/-- Adds the properties of the items of a list. -/
def collectFromList (into : Fields) : Value → Fields
  | .array parts => collectFromItems into parts
  | _ => into

/-- Adds the properties of parts, one after another. -/
def collectFromItems (into : Fields) : List Value → Fields
  | [] => into
  | v :: r => collectFromItems (collectProperties into v) r
end

/-- The names that a schema object and its immediate parts require. -/
def requiredNames (raw : Value) : List String :=
  raw.stringsField "required" ++
    (((raw.get? "allOf").bind Value.asArray?).getD []).flatMap fun p => p.stringsField "required"

/-- The text of an enumerated value. -/
def enumText : Value → String
  | .string s => s
  | v => v.compact

/-- The named schema of a schema object. -/
def buildSchema (name : String) (raw : Value) : Schema where
  name := name
  description := nonEmpty (raw.stringField? "description")
  properties := .ofList ((collectProperties [] raw).map fun (k, v) =>
    (k, ⟨typeOf v, nonEmpty (v.stringField? "description"), (requiredNames raw).contains k⟩))
  enumValues := (((raw.get? "enum").bind Value.asArray?).getD []).map enumText

/-- The schema objects of a document by name. -/
def definitions (doc : Value) (v : Version) : Fields :=
  let container := match v with
    | .three => doc.pointer? "/components/schemas".toList
    | .two => doc.get? "definitions"
  (container.bind Value.asObject?).getD []

end ApiCanon.OpenApi
