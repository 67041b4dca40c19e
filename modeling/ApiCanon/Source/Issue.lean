import ApiCanon.Json.Decode
import ApiCanon.Json.Value

/-!
# Issues

What is wrong, or merely noteworthy, in a source: errors make a reading fail, warnings do not.
-/

namespace ApiCanon

open Json (Value Decoder)

/-- The kind of an issue. -/
inductive IssueKind where
  | unsupportedSourceType
  | sourceUnavailable
  | parseError
  | unresolvedReference
  | duplicateEndpoint
  | duplicateSchema
  | ambiguous
  deriving DecidableEq, Repr, Inhabited

namespace IssueKind

def all : List IssueKind :=
  [unsupportedSourceType, sourceUnavailable, parseError, unresolvedReference, duplicateEndpoint,
    duplicateSchema, ambiguous]

def text : IssueKind → String
  | unsupportedSourceType => "unsupported_source_type"
  | sourceUnavailable => "source_unavailable"
  | parseError => "parse_error"
  | unresolvedReference => "unresolved_reference"
  | duplicateEndpoint => "duplicate_endpoint"
  | duplicateSchema => "duplicate_schema"
  | ambiguous => "ambiguous"

end IssueKind

/-- A finding about a source, with its line where one is known. -/
structure Issue where
  kind : IssueKind
  message : String
  line : Option Nat
  deriving DecidableEq, Repr, Inhabited

namespace Issue

/-- A finding about the source as a whole. -/
def general (kind : IssueKind) (message : String) : Issue := ⟨kind, message, none⟩

/-- An error that makes the reading fail. -/
def parseError (message : String) : Issue := general .parseError message

/-- An error at a line. -/
def parseErrorAt (line : Nat) (message : String) : Issue := ⟨.parseError, message, some line⟩

/-- The issue as shown to a user. -/
def text (i : Issue) : String :=
  match i.line with
  | some l => s!"line {l}: {i.message}"
  | none => i.message

def toJson (i : Issue) : Value :=
  .object <| [("kind", .string i.kind.text), ("message", .string i.message)] ++
    match i.line with
    | some l => [("line", .ofNat l)]
    | none => []

def decode : Decoder Issue :=
  .record "struct ParseIssue" 3 fun s =>
    Issue.mk <$> s.required 0 "kind" (.variant (IssueKind.all.map fun k => (k.text, k)))
      <*> s.required 1 "message" .text
      <*> s.optional 2 "line" .u32

end Issue

end ApiCanon
