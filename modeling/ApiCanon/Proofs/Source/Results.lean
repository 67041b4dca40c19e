import ApiCanon.Proofs.Model.Encoding
import ApiCanon.Source.Request

/-!
# Results and their JSON form

A result is decoded from its own JSON form, if at all, to itself but for what is lost of its
description: the examples that are null, and whatever is read in the text of the moment
(`ReadResult.eq_of_decode`).  It need not be decoded at all, as the line of an issue may not fit
into 32 bits and the moment may be out of the calendar.
-/

namespace ApiCanon

open Json (Value Fields Decoder DecodeError Outcome)

/-! ## Issues -/

lemma IssueKind.decode_text (k : IssueKind) :
    Decoder.variant (IssueKind.all.map fun k => (k.text, k)) (.string k.text) = .ok k := by
  cases k <;> rfl

namespace Issue

/-- The fields of the JSON form of an issue. -/
lemma exists_fields (i : Issue) : ∃ f, i.toJson = .object f ∧
    Fields.get? "kind" f = some (.string i.kind.text) ∧
    Fields.get? "message" f = some (.string i.message) ∧
    Fields.get? "line" f = i.line.map .ofNat := by
  obtain ⟨kind, message, line⟩ := i
  refine ⟨_, rfl, ?_, ?_, ?_⟩ <;> cases line <;> simp

lemma eq_of_decode {i j : Issue} (h : Issue.decode i.toJson = .ok j) : j = i := by
  obtain ⟨f, hf, hk, hm, hl⟩ := i.exists_fields
  obtain ⟨kind, message, line⟩ := i
  rw [hf, Issue.decode, Decoder.record, Json.Source.required_eq 0 hk kind.decode_text,
    Json.Source.required_text 1 hm, Outcome.map_value, Outcome.seq_value, Outcome.toExcept_eq_ok,
    Outcome.seq_eq_value] at h
  obtain ⟨build, line', hb, found, rfl⟩ := h
  obtain rfl := Outcome.value.inj hb
  have solid : ∀ n ∈ line, Value.ofNat n ≠ .null := by simp [Value.ofNat]
  rcases Json.Source.optional_eq_value 2 hl solid found with ⟨rfl, rfl⟩ | ⟨n, m, rfl, rfl, read⟩
  · rfl
  · have number : (Value.ofNat n) = .number (.int n) := rfl
    rw [number, Decoder.u32, Decoder.natBelow] at read
    split_ifs at read with bound
    obtain rfl : n = m := Except.ok.inj read
    rfl

lemma distinct_toJson (i : Issue) : i.toJson.Distinct := by
  obtain ⟨kind, message, line⟩ := i
  have number (n : Nat) : (Value.ofNat n).Distinct := .number _
  exact (((Fields.From.one "kind" (.string _)).append (.one "message" (.string _))).append
    (.option (x := line) "line" (by cases line <;> rfl) fun n _ => number n)).object (by decide)

end Issue

/-! ## Results -/

namespace ReadResult

/-- Some example of the description is null. -/
def HasNullExample (r : ReadResult) : Prop := ∃ a ∈ r.ast, a.HasNullExample

/-- No object in the description has two fields of one name. -/
def Distinct (r : ReadResult) : Prop := ∀ a ∈ r.ast, a.Distinct ∧ a.metadata.Distinct

/-- The result without examples that are null. -/
def withoutNulls (r : ReadResult) : ReadResult := { r with ast := r.ast.map Ast.withoutNulls }

/-- The result with another moment of reading. -/
def readAt (r : ReadResult) (t : Option Timestamp) : ReadResult :=
  { r with ast := r.ast.map fun a => a.readAt t }

/-- The result of the same contents at another place. -/
def readFrom (r : ReadResult) (origin : Option String) : ReadResult := { r with origin := origin }

lemma decode_status (b : Bool) :
    Decoder.variant [("success", true), ("failed", false)]
      (.string (if b then "success" else "failed")) = .ok b := by
  cases b <;> rfl

/-- The fields of the JSON form of a result. -/
lemma exists_fields (r : ReadResult) : ∃ f, r.toJson = .object f ∧
    Fields.get? "sourceType" f = some (.string r.sourceType) ∧
    Fields.get? "origin" f = r.origin.map .string ∧
    Fields.get? "status" f = some (.string (if r.succeeded then "success" else "failed")) ∧
    Fields.get? "ast" f = r.ast.map Ast.toJson ∧
    Fields.get? "warnings" f = some (.array (r.warnings.map Issue.toJson)) ∧
    Fields.get? "errors" f = some (.array (r.errors.map Issue.toJson)) ∧
    Fields.get? "brokenDependencies" f = some (.array (r.brokenDependencies.map .string)) ∧
    Fields.get? "durationMs" f = some (.ofNat 0) := by
  obtain ⟨sourceType, origin, ast, warnings, errors, broken, succeeded⟩ := r
  refine ⟨_, rfl, ?_, ?_, ?_, ?_, ?_, ?_, ?_, ?_⟩ <;> cases ast <;> simp

/-- Whatever comes back of a result is the result but for what is lost of its description. -/
theorem eq_of_decode {r s : ReadResult} (h : ReadResult.decode r.toJson = .ok s) :
    ∃ t, s = r.withoutNulls.readAt t := by
  obtain ⟨f, hf, ht, ho, hs, ha, hw, he, hb, hd⟩ := r.exists_fields
  obtain ⟨sourceType, origin, ast, warnings, errors, broken, succeeded⟩ := r
  dsimp only at ht ho hs ha hw he hb
  have duration : Decoder.u64 (.ofNat 0) = .ok 0 := rfl
  rw [hf, ReadResult.decode, Decoder.record, Json.Source.required_text 0 ht,
    Json.Source.optional_text 1 ho, Json.Source.required_eq 2 hs (decode_status succeeded),
    Json.Source.withDefault_eq 6 [] hb (Decoder.texts_map broken),
    Json.Source.required_eq 7 hd duration, Outcome.toExcept_eq_ok] at h
  simp only [Outcome.map_value, Outcome.seq_value, Outcome.seq_eq_value, Outcome.value.injEq,
    Json.Source.withDefault_eq_value_iff 4 [] hw,
    Json.Source.withDefault_eq_value_iff 5 [] he] at h
  obtain ⟨build, -, ⟨build, -, ⟨build, errors', ⟨build, warnings', ⟨build, ast', rfl, foundAst,
    rfl⟩, foundWarnings, rfl⟩, foundErrors, rfl⟩, rfl, rfl⟩, rfl, rfl⟩ := h
  obtain rfl : warnings' = warnings :=
    Decoder.eq_of_list_map (fun _ _ => Issue.eq_of_decode) foundWarnings
  obtain rfl : errors' = errors :=
    Decoder.eq_of_list_map (fun _ _ => Issue.eq_of_decode) foundErrors
  have solid : ∀ a ∈ ast, a.toJson ≠ .null := by simp [Ast.toJson]
  rcases Json.Source.optional_eq_value 3 ha solid foundAst with ⟨rfl, rfl⟩ | ⟨a, b, rfl, rfl, read⟩
  · exact ⟨none, rfl⟩
  · rw [Ast.decode_toJson] at read
    cases ht : Timestamp.reread a.metadata.parsedAt with
    | ok t =>
      rw [ht] at read
      obtain rfl := Except.ok.inj read
      exact ⟨t, rfl⟩
    | error e =>
      rw [ht] at read
      cases read

/-- No object in the JSON form of a result has two fields of one name. -/
theorem distinct_toJson {r : ReadResult} (h : r.Distinct) : r.toJson.Distinct := by
  obtain ⟨sourceType, origin, ast, warnings, errors, broken, succeeded⟩ := r
  have lists : Fields.From ["warnings", "errors", "brokenDependencies", "durationMs"]
      [("warnings", .array (warnings.map Issue.toJson)),
        ("errors", .array (errors.map Issue.toJson)),
        ("brokenDependencies", .array (broken.map .string)), ("durationMs", .ofNat 0)] :=
    (Fields.From.one "warnings" (distinct_list fun i _ => i.distinct_toJson)).append
      ((Fields.From.one "errors" (distinct_list fun i _ => i.distinct_toJson)).append
        ((Fields.From.one "brokenDependencies" (distinct_list fun s _ => .string s)).append
          (.one "durationMs" (.number _))))
  exact (((((Fields.From.one "sourceType" (.string _)).append (.text "origin" _)).append
    (.one "status" (.string _))).append (.option (x := ast) "ast" (by cases ast <;> rfl)
      fun a ha => Ast.distinct_toJson (h a ha).1 (h a ha).2)).append lists).object (by decide)

/-! ## Agreement -/

/-- Two results that differ in nothing but the moment of reading, descriptions being compared as
such. -/
structure Agrees (r s : ReadResult) : Prop where
  sourceType : r.sourceType = s.sourceType
  origin : r.origin = s.origin
  succeeded : r.succeeded = s.succeeded
  ast : Option.Rel (fun a b => a.structurallyEq b = true) r.ast s.ast
  warnings : r.warnings = s.warnings
  errors : r.errors = s.errors
  brokenDependencies : r.brokenDependencies = s.brokenDependencies

lemma agrees_self {r : ReadResult} (h : r.Distinct) : r.Agrees r := by
  refine ⟨rfl, rfl, rfl, ?_, rfl, rfl, rfl⟩
  cases hr : r.ast with
  | none => exact .none
  | some a => exact .some (Ast.structurallyEq_refl (h a hr).1 (h a hr).2)

/-- A result without the examples that are null agrees with it if it has none. -/
lemma agrees_withoutNulls_iff {r : ReadResult} (h : r.Distinct) (t : Option Timestamp) :
    (r.withoutNulls.readAt t).Agrees r ↔ ¬r.HasNullExample := by
  obtain ⟨sourceType, origin, ast, warnings, errors, broken, succeeded⟩ := r
  cases ast with
  | none =>
    have none : ¬HasNullExample ⟨sourceType, origin, none, warnings, errors, broken, succeeded⟩ :=
      fun ⟨_, ha, _⟩ => nomatch ha
    exact iff_of_true ⟨rfl, rfl, rfl, .none, rfl, rfl, rfl⟩ none
  | some a =>
    have same := Ast.structurallyEq_withoutNulls_iff (h a rfl).1 (h a rfl).2 t
    constructor
    · intro agrees null
      obtain ⟨b, hb, null⟩ := null
      obtain rfl := Option.some.inj hb
      cases agrees.ast with
      | some equal => exact same.1 equal null
    · intro none
      have equal := same.2 fun null => none ⟨a, rfl, null⟩
      exact ⟨rfl, rfl, rfl, .some equal, rfl, rfl, rfl⟩

end ReadResult

end ApiCanon
