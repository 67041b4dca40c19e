import ApiCanon.Service.Provider
import Mathlib.Tactic.Lemma

/-!
# Answers of providers

A provider may answer with any value.  The service on top of it accepts a value that has the one
field that the kind of the request needs, and hands it on as it is.  The schema in the prompt may
ask for more: that a review lists its issues is asked for and not checked.  Whatever goes wrong is
reported with the name of a provider (`Provider.service_answers`).
-/

namespace ApiCanon

open Json (Value)

/-- The value has all of these fields. -/
def Json.Value.HasFields (v : Value) (names : List String) : Prop :=
  ∀ k ∈ names, (v.get? k).isSome = true

/-- The work ends before its deadline, or together with it. -/
def Work.InTime {ε α : Type} (w : Work ε α) (limit : Option Span) : Prop :=
  ∀ l ∈ limit, w.duration.nanos ≤ l.nanos

lemma Work.within_eq_ok_iff {ε α : Type} {w : Work ε α} {limit : Option Span} {late : Span → ε}
    {a : α} : (w.within limit late).result = .ok a ↔ w.result = .ok a ∧ w.InTime limit := by
  cases limit with
  | none => simp [InTime]
  | some l =>
    rcases Nat.lt_or_ge l.nanos w.duration.nanos with h | h
    · rw [within_of_lt h]
      exact iff_of_false nofun fun ⟨_, intime⟩ => Nat.not_le.2 h (intime l rfl)
    · rw [within_of_le h]
      exact (and_iff_left fun _ same => Option.some.inj same ▸ h).symm

namespace ItemKind

/-- The schema requires the fields that an answer is asked to have. -/
lemma stringsField_answerSchema (k : ItemKind) :
    k.answerSchema.stringsField "required" = k.requestedFields := by
  cases k <;> rfl

/-- Apart from the field that an answer needs, only the issues of a review are asked for. -/
lemma hasFields_requested_iff {k : ItemKind} {v : Value} :
    v.HasFields k.requestedFields ↔
      (v.get? k.requiredField).isSome = true ∧
        (k = .validate → (v.get? "issues").isSome = true) := by
  cases k <;> simp [Json.Value.HasFields, requestedFields, requiredField]

end ItemKind

namespace Provider

/-- Whoever failed, a provider is named. -/
lemma provider_serviceError (name : String) (e : AppError) :
    (serviceError name e).provider.isSome = true := by
  cases e with
  | service e =>
    rw [serviceError]
    split
    · assumption
    · rfl
  | _ => rfl

lemma accept_eq_ok_iff {name : String} {kind : ItemKind} {answer : Value} {s : ServiceResponse} :
    accept name kind answer = .ok s ↔
      ⟨answer, confidenceOf answer⟩ = s ∧ (answer.get? kind.requiredField).isSome = true := by
  rw [accept]
  split
  · next given => exact ⟨fun h => ⟨Except.ok.inj h, given⟩, fun h => congrArg _ h.1⟩
  · next missing => exact iff_of_false nofun fun h => missing h.2

lemma provider_of_accept {name : String} {kind : ItemKind} {answer : Value} {e : ServiceError}
    (refused : accept name kind answer = .error e) : e.provider.isSome = true := by
  rw [accept] at refused
  split at refused
  · exact nomatch refused
  · obtain rfl := Except.error.inj refused
    rfl

variable (p : Provider) (limit : Option Span) (r : ServiceRequest)

/-- What the provider makes of a request. -/
def answer : Work AppError Value := p.generate (Prompt.ofRequest r).text r.kind.answerSchema

lemma service_result :
    (p.service limit r).result =
      match ((p.answer r).within limit (.timedOut "LLM request")).result with
      | .ok content => accept p.name r.kind content
      | .error e => .error (serviceError p.name e) := by
  show Work.result (match (callWithin limit "LLM request" (p.answer r)).result with
    | .ok content => ⟨_, accept p.name r.kind content⟩
    | .error e => ⟨_, .error (serviceError p.name e)⟩) = _
  rw [callWithin]
  cases ((p.answer r).within limit (.timedOut "LLM request")).result <;> rfl

/-- A request succeeds exactly if the answer is in time and has the field that it needs. -/
lemma service_eq_ok_iff {s : ServiceResponse} :
    (p.service limit r).result = .ok s ↔
      ∃ content, ((p.answer r).result = .ok content ∧ (p.answer r).InTime limit) ∧
        ⟨content, confidenceOf content⟩ = s ∧
        (content.get? r.kind.requiredField).isSome = true := by
  have answered := @Work.within_eq_ok_iff _ _ (p.answer r) limit (.timedOut "LLM request")
  simp only [← answered, service_result]
  cases ((p.answer r).within limit (.timedOut "LLM request")).result with
  | ok content => simp [accept_eq_ok_iff]
  | error e => simp

lemma provider_of_service {e : ServiceError} (failed : (p.service limit r).result = .error e) :
    e.provider.isSome = true := by
  rw [service_result] at failed
  split at failed
  · exact provider_of_accept failed
  · obtain rfl := Except.error.inj failed
    exact provider_serviceError _ _

/-- **What a provider answers is accepted with the field that the request needs, as it is.**  A
request succeeds exactly if the provider answers in time, with that field.  The answer then has all
the fields that the schema in the prompt requires, but for the issues of a review.  Every failure
names a provider. -/
theorem service_answers :
    (∀ content, (∃ s, (p.service limit r).result = .ok s ∧ s.result = content) ↔
      ((p.answer r).result = .ok content ∧ (p.answer r).InTime limit) ∧
        (content.get? r.kind.requiredField).isSome = true) ∧
    (∀ s, (p.service limit r).result = .ok s →
      (s.result.HasFields (r.kind.answerSchema.stringsField "required") ↔
        (r.kind = .validate → (s.result.get? "issues").isSome = true))) ∧
    ∀ e, (p.service limit r).result = .error e → e.provider.isSome = true := by
  refine ⟨fun content => ?_, fun s accepted => ?_, fun e => p.provider_of_service limit r⟩
  · simp only [service_eq_ok_iff]
    constructor
    · rintro ⟨_, ⟨given, answered, rfl, usable⟩, rfl⟩
      exact ⟨answered, usable⟩
    · rintro ⟨answered, usable⟩
      exact ⟨_, ⟨content, answered, rfl, usable⟩, rfl⟩
  · obtain ⟨content, -, rfl, usable⟩ := (p.service_eq_ok_iff limit r).1 accepted
    rw [ItemKind.stringsField_answerSchema, ItemKind.hasFields_requested_iff, and_iff_right usable]

/-- A provider who gives one answer, after five nanoseconds. -/
def canned (content : Value) : Provider := ⟨"canned", fun _ _ => ⟨⟨5⟩, .ok content⟩⟩

/-- An answer at the end of the time that it has. -/
theorem service_answers_atLimit :
    ∃ s, ((canned (.object [("summary", .string "List pets")])).service (some ⟨5⟩)
        ⟨.summarize, .null, none⟩).result = .ok s ∧ s.result.HasFields ["summary"] := by
  have answers := (canned (.object [("summary", .string "List pets")])).service_answers (some ⟨5⟩)
    ⟨.summarize, .null, none⟩
  obtain ⟨s, accepted, -⟩ := (answers.1 (.object [("summary", .string "List pets")])).2
    ⟨⟨rfl, fun l same => Option.some.inj same ▸ Nat.le_refl 5⟩, rfl⟩
  exact ⟨s, accepted, (answers.2.1 s accepted).2 nofun⟩

/-- A review that does not list its issues is accepted. -/
theorem not_hasFields_of_verdict :
    ((canned (.object [("valid", .bool true)])).service none ⟨.validate, .object [], none⟩).result =
        .ok ⟨.object [("valid", .bool true)], defaultConfidence⟩ ∧
      ¬(Value.object [("valid", .bool true)]).HasFields
        (ItemKind.validate.answerSchema.stringsField "required") := by
  refine ⟨rfl, fun all => ?_⟩
  have issues := all "issues" (by decide)
  exact nomatch issues

end Provider

end ApiCanon
