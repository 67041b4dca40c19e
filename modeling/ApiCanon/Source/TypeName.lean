import ApiCanon.Model.Schema
import ApiCanon.Text.Blank

/-!
# Names of types

The scalar types of the source languages under their common names.  Any other name is that of a
schema.
-/

namespace ApiCanon

/-- The common name of a scalar type. -/
def primitiveOf? (name : String) : Option String :=
  match Text.trimmed name with
  | "string" | "str" | "String" | "text" | "ID" | "uuid" | "date" | "datetime" | "date-time"
  | "Date" | "time.Time" => some "string"
  | "integer" | "int" | "Int" | "int8" | "int16" | "int32" | "int64" | "uint" | "uint8"
  | "uint16" | "uint32" | "uint64" | "long" | "BigInt" => some "integer"
  | "number" | "float" | "Float" | "float32" | "float64" | "double" | "decimal" | "Decimal"
  | "Number" => some "number"
  | "boolean" | "bool" | "Boolean" => some "boolean"
  | "object" | "Object" | "dict" | "Dict" | "map" | "JSON" => some "object"
  | "any" | "Any" | "*" | "interface\x7b\x7d" | "unknown" => some "any"
  | "file" | "File" | "bytes" | "[]byte" | "Upload" => some "binary"
  | "null" | "None" | "void" => some "null"
  | _ => none

/-- The type of a name: a primitive if it is one, nothing known if it is blank, else a schema. -/
def typeRefFor (name : String) : TypeRef :=
  match primitiveOf? name with
  | some p => .primitive p
  | none =>
    let n := Text.trimmed name
    if n.isEmpty then .any else .named n

end ApiCanon
