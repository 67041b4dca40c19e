import ApiCanon.Json.Decode
import ApiCanon.Model.Names

/-!
# Differences

A difference is breaking when a client written for the old description can fail with the new one.
Two descriptions can be compared only if the endpoints of each have paths and distinct keys and its
schemas are stored under their own names.
-/

namespace ApiCanon

open Json (Value Decoder)

/-- A difference between two endpoints or two schemas. -/
structure Difference where
  field : String
  message : String
  breaking : Bool
  deriving DecidableEq, Repr, Inhabited

namespace Difference

/-- A difference that can make a client fail. -/
def breakingIn (field message : String) : Difference := ⟨field, message, true⟩

/-- A difference that no client minds. -/
def harmlessIn (field message : String) : Difference := ⟨field, message, false⟩

def toJson (d : Difference) : Value :=
  .object [("field", .string d.field), ("message", .string d.message),
    ("breaking", .bool d.breaking)]

end Difference

/-- What a comparison looks at. -/
structure DiffOptions where
  /-- Passes over summaries and descriptions. -/
  ignoreDescriptions : Bool
  includeSchemas : Bool
  deriving DecidableEq, Repr, Inhabited

namespace DiffOptions

def default : DiffOptions := ⟨false, true⟩

def decode : Decoder DiffOptions :=
  .record "struct DiffOptions" 2 fun s =>
    DiffOptions.mk <$> s.withDefault 0 "ignore_descriptions" .bool false
      <*> s.withDefault 1 "include_schemas" .bool true

end DiffOptions

/-- A difference, if a condition holds. -/
def reportIf (c : Bool) (d : Difference) : List Difference := if c then [d] else []

/-! ## Malformed descriptions -/

/-- One of the two descriptions of a comparison. -/
inductive Side where
  | old
  | new
  deriving DecidableEq, Repr, Inhabited

def Side.text : Side → String
  | old => "old"
  | new => "new"

/-- What is wrong with a description. -/
inductive DiffError where
  | emptyPath (side : Side) (index : Nat) (method : Method)
  | duplicateEndpoint (side : Side) (locator : String)
  | schemaNameMismatch (side : Side) (key name : String)
  deriving DecidableEq, Repr, Inhabited

def DiffError.message : DiffError → String
  | emptyPath side index method =>
    s!"{side.text} AST: endpoint #{index} ({method.text}) has an empty path"
  | duplicateEndpoint side locator => s!"{side.text} AST: duplicate endpoint {locator}"
  | schemaNameMismatch side key name =>
    s!"{side.text} AST: schema stored under '{key}' is named '{name}'"

end ApiCanon
