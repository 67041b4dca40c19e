import ApiCanon.Error
import ApiCanon.Service.Prompt

/-!
# Providers

A provider turns a prompt and the schema of the answer into a JSON value.  The service on top of
it builds the prompt of a request, calls the provider under a deadline, and accepts an answer
only if it has the field that the kind of request needs.

A piece of work takes a span of time and then has a result.  A deadline cuts it off; work that
ends together with its deadline is in time.
-/

namespace ApiCanon

open Json (Value)

/-- A piece of work: how long it takes, and what comes of it. -/
structure Work (ε α : Type) where
  duration : Span
  result : Except ε α

namespace Work

variable {ε α : Type}

/-- The work cut off at a limit, with the failure that this counts as. -/
def within (w : Work ε α) (limit : Option Span) (late : Span → ε) : Work ε α :=
  match limit with
  | none => w
  | some limit => if w.duration.nanos ≤ limit.nanos then w else ⟨limit, .error (late limit)⟩

@[simp] theorem within_none (w : Work ε α) (late : Span → ε) : w.within none late = w := rfl

theorem within_of_le {w : Work ε α} {limit : Span} (h : w.duration.nanos ≤ limit.nanos)
    (late : Span → ε) : w.within (some limit) late = w := by
  simp [within, h]

theorem within_of_lt {w : Work ε α} {limit : Span} (h : limit.nanos < w.duration.nanos)
    (late : Span → ε) : w.within (some limit) late = ⟨limit, .error (late limit)⟩ := by
  simp [within, Nat.not_le.2 h]

end Work

/-- An operation under a deadline. -/
def callWithin {α : Type} (limit : Option Span) (operation : String) (w : Work AppError α) :
    Work AppError α :=
  w.within limit (.timedOut operation)

/-- An item of a batch under a deadline. -/
def itemWithin {α : Type} (limit : Option Span) (operation : String) (w : Work ServiceError α) :
    Work ServiceError α :=
  w.within limit (.timedOut operation)

/-- Somebody who answers prompts. -/
structure Provider where
  name : String
  generate : String → Value → Work AppError Value

/-- Somebody who answers requests. -/
abbrev Service := ServiceRequest → Work ServiceError ServiceResponse

namespace Provider

/-- A failure of a provider, as a failure of the service: who failed is always told. -/
def serviceError (name : String) : AppError → ServiceError
  | .service e => if e.provider.isSome then e else { e with provider := some name }
  | .timedOut operation limit =>
    ⟨.timeout, (AppError.timedOut operation limit).message, some name⟩
  | e => ServiceError.classify e.message name

/-- A number moved into the interval from nothing to one. -/
def clampedUnit (x : Binary.Finite) : Binary.Finite :=
  if x.isZero then x
  else if x.negative then ⟨false, 0, 0⟩
  else
    let (num, den) := x.ratio
    if den < num then ⟨false, 1, 0⟩ else x

/-- The confidence that an answer states, in single precision. -/
def confidenceOf (answer : Value) : Binary.Finite :=
  match answer.get? "confidence" with
  | some (.number n) =>
    ((n.toDouble?.map clampedUnit).bind Binary.single.convert?).getD defaultConfidence
  | _ => defaultConfidence

/-- The failure to give the field that a kind of request needs. -/
def missingField (name : String) (kind : ItemKind) : ServiceError :=
  ⟨.badResponse, s!"{kind.text} response is missing '{kind.requiredField}'", some name⟩

/-- What becomes of an answer. -/
def accept (name : String) (kind : ItemKind) (answer : Value) :
    Except ServiceError ServiceResponse :=
  if (answer.get? kind.requiredField).isSome then .ok ⟨answer, confidenceOf answer⟩
  else .error (missingField name kind)

/-- The service of a provider, with a limit to the time of each call. -/
def service (p : Provider) (limit : Option Span) : Service := fun r =>
  let w := callWithin limit "LLM request"
    (p.generate (Prompt.ofRequest r).text r.kind.answerSchema)
  match w.result with
  | .ok answer => ⟨w.duration, accept p.name r.kind answer⟩
  | .error e => ⟨w.duration, .error (serviceError p.name e)⟩

end Provider

end ApiCanon
