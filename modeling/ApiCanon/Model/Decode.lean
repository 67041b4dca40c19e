import ApiCanon.Json.Decode
import ApiCanon.Model.Ast

/-!
# Descriptions from JSON

The decoders of the record types.  Fields with a default may be missing; an optional field may
also be null.  The kind of a type is read before anything else of it.
-/

namespace ApiCanon

open Json (Value Fields Decoder DecodeError Outcome Source)

def Method.decode : Decoder Method := .variant (Method.all.map fun m => (m.text, m))

def Location.decode : Decoder Location := .variant (Location.all.map fun l => (l.text, l))

/-! ## Types -/

/-- The kinds of types. -/
inductive TypeKind where
  | named
  | primitive
  | array
  deriving DecidableEq, Repr

namespace TypeKind

def known : List (String × TypeKind) :=
  [("named", named), ("primitive", primitive), ("array", array)]

/-- Reads the kind.  Inside of a list a kind may also be given by its number. -/
def decode (inner : Bool) : Decoder TypeKind
  | .string s =>
    match known.lookup s with
    | some k => .ok k
    | none => .error (.unknownVariant s (known.map (·.1)))
  | .number (.int i) =>
    if inner ∧ 0 ≤ i then
      match (known.map (·.2))[i.toNat]? with
      | some k => .ok k
      | none => .error (.wrongValue (.number (.int i)) "variant index 0 <= i < 3")
    else .error (.wrongKind (.number (.int i)) "variant identifier")
  | v => .error (.wrongKind v "variant identifier")

/-- How a kind with its content is named in messages. -/
def shown : TypeKind → String
  | named => "struct variant TypeRef::Named"
  | primitive => "struct variant TypeRef::Primitive"
  | array => "struct variant TypeRef::Array"

end TypeKind

/-- Complains about items after the first. -/
def noMoreItems {α : Type} (a : α) (items : List Value) : Except DecodeError α :=
  if 1 < items.length then .error (.wrongLength items.length "1 element in sequence") else .ok a

mutual
/-- Reads a type: an object with its kind, or the list of its kind and its content. -/
def TypeRef.decodeAt (inner : Bool) : Decoder TypeRef
  | .object f => do
    let kind ← match Fields.get? "kind" f with
      | some v => TypeKind.decode inner v
      | none => .error (.missingField "kind")
    TypeRef.decodeContent kind f
  | .array [] => .error (.missingField "kind")
  | .array (k :: items) => do
    let kind ← TypeKind.decode inner k
    TypeRef.decodeItems kind items
  | v => .error (.wrongKind v "internally tagged enum TypeRef")

/-- Reads the content of a type of a known kind, which is to be the only item. -/
def TypeRef.decodeItems (kind : TypeKind) : List Value → Except DecodeError TypeRef
  | [] => .error (.wrongLength 0 (kind.shown ++ " with 1 element"))
  | v :: r =>
    match kind with
    | .named => do noMoreItems (.named (← Decoder.text v)) (v :: r)
    | .primitive => do noMoreItems (.primitive (← Decoder.text v)) (v :: r)
    | .array => do noMoreItems (.array (← TypeRef.decodeAt true v)) (v :: r)

/-- Reads the content of a type of a known kind. -/
def TypeRef.decodeContent (kind : TypeKind) : List (String × Value) → Except DecodeError TypeRef
  | [] => .error (.missingField (if kind = .array then "items" else "name"))
  | (k, v) :: r =>
    match kind with
    | .named => if k = "name" then (Decoder.text v).map .named else decodeContent kind r
    | .primitive => if k = "name" then (Decoder.text v).map .primitive else decodeContent kind r
    | .array =>
      if k = "items" then (TypeRef.decodeAt true v).map .array else decodeContent kind r
end

def TypeRef.decode : Decoder TypeRef := TypeRef.decodeAt false

/-! ## Records -/

def Property.decode : Decoder Property :=
  .record "struct PropertySchema" 3 fun s =>
    Property.mk <$> s.required 0 "type" TypeRef.decode
      <*> s.optional 1 "description" .text
      <*> s.withDefault 2 "required" .bool false

/-- A map with decoded values. -/
def decodeMap {α : Type} (d : Decoder α) : Decoder (SortedMap α) := fun v =>
  (Decoder.entries d v).map SortedMap.ofList

def Schema.decode : Decoder Schema :=
  .record "struct Schema" 4 fun s =>
    Schema.mk <$> s.required 0 "name" .text
      <*> s.optional 1 "description" .text
      <*> s.withDefault 2 "properties" (decodeMap Property.decode) .empty
      <*> s.withDefault 3 "enum_values" (.list .text) []

def Parameter.decode : Decoder Parameter :=
  .record "struct Parameter" 5 fun s =>
    Parameter.mk <$> s.required 0 "name" .text
      <*> s.required 1 "location" Location.decode
      <*> s.withDefault 2 "required" .bool false
      <*> s.optional 3 "description" .text
      <*> s.required 4 "schema" TypeRef.decode

def RequestBody.decode : Decoder RequestBody :=
  .record "struct RequestBody" 4 fun s =>
    RequestBody.mk <$> s.required 0 "content_type" .text
      <*> s.optional 1 "description" .text
      <*> s.withDefault 2 "required" .bool false
      <*> s.required 3 "schema" TypeRef.decode

def Response.decode : Decoder Response :=
  .record "struct Response" 4 fun s =>
    Response.mk <$> s.required 0 "status" .text
      <*> s.optional 1 "description" .text
      <*> s.optional 2 "schema" TypeRef.decode
      <*> s.optional 3 "example" .any

def Endpoint.decode : Decoder Endpoint :=
  .record "struct Endpoint" 11 fun s =>
    Endpoint.mk <$> s.required 0 "method" Method.decode
      <*> s.required 1 "path" .text
      <*> s.optional 2 "summary" .text
      <*> s.optional 3 "description" .text
      <*> s.optional 4 "operationId" .text
      <*> s.withDefault 5 "parameters" (.list Parameter.decode) []
      <*> s.optional 6 "requestBody" RequestBody.decode
      <*> s.withDefault 7 "responses" (.list Response.decode) []
      <*> s.withDefault 8 "tags" (.list .text) []
      <*> s.withDefault 9 "deprecated" .bool false
      <*> s.optional 10 "enhancedDescription" .text

def Timestamp.decode : Decoder Timestamp
  | .string s =>
    match Timestamp.read s.toList with
    | .ok t => .ok t
    | .error e => .error (.malformed e.message)
  | v => .error (.wrongKind v "an RFC 3339 formatted date and time string")

def Metadata.decode : Decoder Metadata :=
  .record "struct AstMetadata" 5 fun s =>
    Metadata.mk <$> s.required 0 "sourceType" .text
      <*> s.optional 1 "projectName" .text
      <*> s.optional 2 "projectVersion" .text
      <*> s.optional 3 "parsedAt" Timestamp.decode
      <*> s.withDefault 4 "extra" (decodeMap .any) .empty

def Ast.decode : Decoder Ast :=
  .record "struct CanonicalAst" 4 fun s =>
    Ast.mk <$> s.required 0 "endpoints" (.list Endpoint.decode)
      <*> s.required 1 "schemas" (decodeMap Schema.decode)
      <*> s.required 2 "metadata" Metadata.decode
      <*> s.withDefault 3 "unresolved" .bool false

end ApiCanon
