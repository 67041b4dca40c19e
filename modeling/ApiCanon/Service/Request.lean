import ApiCanon.Json.Decode
import ApiCanon.Text.Case

/-!
# Requests to the writing service

What the service is asked to do with a payload, and what it answers.
-/

namespace ApiCanon

open Json (Value Decoder)

/-- What is to be done with a payload. -/
inductive ItemKind where
  | summarize
  | enhance
  | validate
  deriving DecidableEq, Repr, Inhabited

namespace ItemKind

def all : List ItemKind := [summarize, enhance, validate]

def text : ItemKind → String
  | summarize => "summarize"
  | enhance => "enhance"
  | validate => "validate"

/-- Reads a kind in any case. -/
def ofText? (s : String) : Option ItemKind :=
  (all.map fun k => (k.text, k)).lookup (Text.lower s)

/-- The complaint about a text that is no kind. -/
def unknownMessage (s : String) : String :=
  s!"Unknown item kind: {Text.lower s}. Supported: summarize, enhance, validate"

def decode : Decoder ItemKind := .variant (all.map fun k => (k.text, k))

end ItemKind

/-- A request to the service. -/
structure ServiceRequest where
  kind : ItemKind
  payload : Value
  context : Option Value
  deriving Inhabited

def ServiceRequest.decode : Decoder ServiceRequest :=
  .record "struct AiRequest" 3 fun s =>
    ServiceRequest.mk <$> s.required 0 "kind" ItemKind.decode
      <*> s.required 1 "payload" .any
      <*> s.optional 2 "context" .any

/-- An answer of the service, with a confidence between nothing and one. -/
structure ServiceResponse where
  result : Value
  confidence : Binary.Finite
  deriving Inhabited

/-- The confidence of an answer that states none. -/
def defaultConfidence : Binary.Finite := ⟨false, Nat.pow 2 23, -24⟩

/-- The number of tokens that a request took. -/
structure TokenUsage where
  inputTokens : Nat
  outputTokens : Nat
  deriving DecidableEq, Repr, Inhabited

namespace TokenUsage

/-- The sum, as far as 32 bits hold it. -/
def total (u : TokenUsage) : Nat := min (u.inputTokens + u.outputTokens) (Nat.pow 2 32 - 1)

def toJson (u : TokenUsage) : Value :=
  .object [("input_tokens", .ofNat u.inputTokens), ("output_tokens", .ofNat u.outputTokens)]

def decode : Decoder TokenUsage :=
  .record "struct TokenUsage" 2 fun s =>
    TokenUsage.mk <$> s.required 0 "input_tokens" .u32 <*> s.required 1 "output_tokens" .u32

end TokenUsage

end ApiCanon
