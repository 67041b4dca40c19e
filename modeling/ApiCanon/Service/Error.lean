import ApiCanon.Json.Decode
import ApiCanon.Text.Case
import ApiCanon.Text.Search
import ApiCanon.Time.Timestamp

/-!
# Failures of the writing service

Every failure of the service that writes documentation has a category, and some categories may
be tried again.  The category of a free text is found by the words in it; the first rule that
applies decides.
-/

namespace ApiCanon

open Json (Value Decoder)

/-- Why the service failed. -/
inductive ErrorCategory where
  | rateLimit
  | timeout
  | unavailable
  | badResponse
  | rejected
  | unknown
  deriving DecidableEq, Repr, Inhabited

namespace ErrorCategory

def all : List ErrorCategory :=
  [rateLimit, timeout, unavailable, badResponse, rejected, unknown]

/-- The name in data. -/
def text : ErrorCategory → String
  | rateLimit => "rate_limit"
  | timeout => "timeout"
  | unavailable => "unavailable"
  | badResponse => "bad_response"
  | rejected => "rejected"
  | unknown => "unknown"

/-- The name in messages. -/
def shown : ErrorCategory → String
  | rateLimit => "RATE_LIMIT"
  | timeout => "TIMEOUT"
  | unavailable => "UNAVAILABLE"
  | badResponse => "BAD_RESPONSE"
  | rejected => "REJECTED"
  | unknown => "UNKNOWN"

/-- Whether the same request may succeed later. -/
def isRetryable : ErrorCategory → Bool
  | rateLimit | timeout | unavailable | badResponse => true
  | rejected | unknown => false

def decode : Decoder ErrorCategory := .variant (all.map fun c => (c.text, c))

end ErrorCategory

/-- A failure of the service for one request. -/
structure ServiceError where
  category : ErrorCategory
  message : String
  /-- Who failed, where that is known. -/
  provider : Option String
  deriving DecidableEq, Repr, Inhabited

namespace ServiceError

/-- The failure as shown to a user. -/
def text (e : ServiceError) : String :=
  match e.provider with
  | some p => s!"[{p}:{e.category.shown}] {e.message}"
  | none => s!"[{e.category.shown}] {e.message}"

/-- The failure to answer in time. -/
def timedOut (operation : String) (limit : Span) : ServiceError :=
  ⟨.timeout, s!"{operation} timed out after {limit.text}", none⟩

def isRetryable (e : ServiceError) : Bool := e.category.isRetryable

def toJson (e : ServiceError) : Value :=
  .object <| [("category", .string e.category.text), ("message", .string e.message)] ++
    match e.provider with
    | some p => [("provider", .string p)]
    | none => []

def decode : Decoder ServiceError :=
  .record "struct AiServiceError" 3 fun s =>
    ServiceError.mk <$> s.required 0 "category" ErrorCategory.decode
      <*> s.required 1 "message" .text
      <*> s.optional 2 "provider" .text

/-! ## Classification -/

/-- The words that tell a category, the most telling category first. -/
def tellingWords : List (ErrorCategory × List String) :=
  [(.rateLimit, ["rate limit", "429", "too many requests"]),
    (.timeout, ["timeout", "timed out"]),
    (.unavailable, ["503", "502", "unavailable", "connection", "not installed"]),
    (.rejected, ["401", "403", "unauthorized", "api key", "bad request"]),
    (.badResponse, ["parse", "json", "schema"])]

/-- The category of a free text: that of the first words found in it, case ignored. -/
def categoryOf (message : String) : ErrorCategory :=
  let lower := Text.lower message
  match tellingWords.find? fun p => p.2.any fun w => Text.occursIn w lower with
  | some (c, _) => c
  | none => .unknown

/-- A failure told in free text by a provider. -/
def classify (message provider : String) : ServiceError :=
  ⟨categoryOf message, message, some provider⟩

end ServiceError

end ApiCanon
