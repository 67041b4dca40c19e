import ApiCanon.Cache.Basic
import ApiCanon.Proofs.Json.RoundTrip
import ApiCanon.Proofs.Model.RoundTrip
import ApiCanon.Proofs.Source.Outcomes
import ApiCanon.Proofs.Text.Utf8

/-!
# Results that come back

The result of a reading is kept as the text of its JSON form.  What the text is read as depends on
the depth of its brackets alone, given that its numbers are read back, its lines fit into 32 bits
and its moment lies in the calendar: if fewer brackets are open inside of one another than the
reader allows, the result without the examples that are null, and otherwise nothing
(`ReadResult.reread?_written`).  The place of the source and the moment of reading make no
difference to this (`ReadResult.Portable.rewritten`, `ReadResult.height_rewritten`).
-/

namespace ApiCanon

open Json (Value Fields Decoder Outcome)

namespace Issue

/-- The line, if it is known, fits into 32 bits. -/
def Fits (i : Issue) : Prop := ∀ n ∈ i.line, n < 2 ^ 32

lemma decode_toJson {i : Issue} (fits : i.Fits) : Issue.decode i.toJson = .ok i := by
  obtain ⟨f, hf, hk, hm, hl⟩ := i.exists_fields
  obtain ⟨kind, message, line⟩ := i
  have number : ∀ n ∈ line, Decoder.u32 (.ofNat n) = .ok n := by
    intro n hn
    have bound : (n : Int) < (Nat.pow 2 32 : Nat) := by exact_mod_cast fits n hn
    simp only [Value.ofNat, Decoder.u32, Decoder.natBelow, bound, and_true, Int.natCast_nonneg,
      if_true, Int.toNat_natCast]
  rw [hf, Issue.decode, Decoder.record, Json.Source.required_eq 0 hk kind.decode_text,
    Json.Source.required_text 1 hm,
    Json.Source.optional_eq 2 hl number (by simp [Value.ofNat])]
  rfl

end Issue

/-! ## Place and moment in the JSON form -/

lemma heightOfFields_append (f g : Fields) :
    Value.heightOfFields (f ++ g) = max (Value.heightOfFields f) (Value.heightOfFields g) := by
  induction f with
  | nil => simp [Value.heightOfFields]
  | cons p f ih => simp only [List.cons_append, Value.heightOfFields, ih, Nat.max_assoc]

@[simp] lemma heightOfFields_textField (k : String) (t : Option String) :
    Value.heightOfFields (textField k t) = 0 := by
  cases t <;> rfl

lemma exact_textField {k : String} {t : Option String} : ∀ p ∈ textField k t, p.2.Exact := by
  cases t <;> simp [textField]

namespace Ast

lemma decode_toJson_of_timed {a : Ast} (timed : a.Timed) :
    Ast.decode a.toJson = .ok a.withoutNulls := by
  rw [Ast.decode_toJson, Timestamp.reread_eq_ok_iff.2 timed]
  rfl

lemma height_readAt (a : Ast) (t : Option Timestamp) :
    (a.readAt t).toJson.height = a.toJson.height := by
  have metadata : (a.readAt t).metadata.toJson.height = a.metadata.toJson.height := by
    simp only [Metadata.toJson, readAt, Value.height, heightOfFields_append,
      heightOfFields_textField]
    rfl
  simp only [toJson, Value.height, Value.heightOfFields, metadata]
  rfl

lemma exact_readAt {a : Ast} (exact : a.toJson.Exact) (t : Option Timestamp) :
    (a.readAt t).toJson.Exact := by
  have metadata : (a.readAt t).metadata.toJson.Exact := by
    have numbers : a.metadata.toJson.Exact :=
      exact.value ("metadata", a.metadata.toJson) (by simp)
    simp only [Metadata.toJson, Value.exact_object, List.forall_mem_append] at numbers ⊢
    exact ⟨⟨numbers.1.1, exact_textField⟩, numbers.2⟩
  simp only [toJson, Value.exact_object, List.forall_mem_cons] at exact ⊢
  exact ⟨exact.1, exact.2.1, metadata, exact.2.2.2⟩

end Ast

namespace ReadResult

/-- A result of which the JSON form means the result: its numbers are read back from their texts,
its lines fit into 32 bits, and its moment of reading lies in the calendar. -/
structure Portable (r : ReadResult) : Prop where
  numbers : r.toJson.Exact
  lines : ∀ i ∈ r.warnings ++ r.errors, i.Fits
  timed : ∀ a ∈ r.ast, a.Timed

/-- The result of the same contents at another place and at another moment. -/
def rewritten (r : ReadResult) (origin : Option String) (t : Timestamp) : ReadResult :=
  (r.readFrom origin).readAt (some t)

variable {r : ReadResult}

lemma height_rewritten (r : ReadResult) (origin : Option String) (t : Timestamp) :
    (r.rewritten origin t).toJson.height = r.toJson.height := by
  obtain ⟨sourceType, place, ast, warnings, errors, broken, succeeded⟩ := r
  cases ast with
  | none =>
    simp only [rewritten, readFrom, readAt, toJson, Value.height, Option.map_none,
      heightOfFields_append, heightOfFields_textField]
    rfl
  | some a =>
    simp only [rewritten, readFrom, readAt, toJson, Value.height, Option.map_some,
      heightOfFields_append, heightOfFields_textField, Value.heightOfFields,
      a.height_readAt]

lemma exact_rewritten (exact : r.toJson.Exact) (origin : Option String) (t : Timestamp) :
    (r.rewritten origin t).toJson.Exact := by
  obtain ⟨sourceType, place, ast, warnings, errors, broken, succeeded⟩ := r
  simp only [toJson, Value.exact_object, List.forall_mem_append] at exact
  obtain ⟨⟨⟨⟨sourceType, -⟩, status⟩, description⟩, rest⟩ := exact
  simp only [rewritten, readFrom, readAt, toJson, Value.exact_object, List.forall_mem_append]
  refine ⟨⟨⟨⟨sourceType, exact_textField⟩, status⟩, ?_⟩, rest⟩
  cases ast with
  | none => simp
  | some a =>
    have exact : a.toJson.Exact := description ("ast", a.toJson) List.mem_cons_self
    simpa using Ast.exact_readAt exact (some t)

lemma Portable.rewritten (h : r.Portable) (origin : Option String) {t : Timestamp}
    (valid : t.Valid) : (r.rewritten origin t).Portable where
  numbers := exact_rewritten h.numbers origin t
  lines := h.lines
  timed := by
    intro a ha
    obtain ⟨b, -, rfl⟩ := Option.mem_map.1 ha
    exact fun u hu => Option.some.inj hu ▸ valid

lemma hasNullExample_rewritten (r : ReadResult) (origin : Option String) (t : Timestamp) :
    (r.rewritten origin t).HasNullExample ↔ r.HasNullExample := by
  constructor
  · rintro ⟨a, ha, null⟩
    obtain ⟨b, hb, rfl⟩ := Option.mem_map.1 ha
    exact ⟨b, hb, null⟩
  · rintro ⟨a, ha, null⟩
    exact ⟨a.readAt (some t), Option.mem_map.2 ⟨a, ha, rfl⟩, null⟩

lemma withoutNulls_eq_self (full : ¬r.HasNullExample) : r.withoutNulls = r := by
  obtain ⟨sourceType, place, ast, warnings, errors, broken, succeeded⟩ := r
  cases ast with
  | none => rfl
  | some a =>
    have same : a.withoutNulls = a := Ast.withoutNulls_eq_self fun null => full ⟨a, rfl, null⟩
    rw [withoutNulls, Option.map_some, same]

/-! ## Back from the text -/

/-- The result as it is written into the cache. -/
def written (r : ReadResult) : Bytes := Bytes.ofString r.toJson.compact

/-- The result for which something written into the cache is taken. -/
def reread? (b : Bytes) : Option ReadResult :=
  (Cache.valueOf? b).bind fun v => (ReadResult.decode v).toOption

/-- Nothing is lost in the JSON form of a result but the examples that are null. -/
theorem decode_toJson (h : r.Portable) : ReadResult.decode r.toJson = .ok r.withoutNulls := by
  obtain ⟨f, hf, ht, ho, hs, ha, hw, he, hb, hd⟩ := r.exists_fields
  obtain ⟨sourceType, origin, ast, warnings, errors, broken, succeeded⟩ := r
  dsimp only at ht ho hs ha hw he hb
  have duration : Decoder.u64 (.ofNat 0) = .ok 0 := rfl
  have lines := List.forall_mem_append.1 h.lines
  have description : (Json.Source.fields f).optional 3 "ast" Ast.decode =
      .value (ast.map Ast.withoutNulls) := by
    cases ast with
    | none => exact Json.Source.withDefault_missing 3 none ha
    | some a =>
      refine Json.Source.withDefault_eq 3 none ha ?_
      rw [Decoder.optional_of_ne_null (by simp [Ast.toJson]),
        Ast.decode_toJson_of_timed (h.timed a rfl)]
      rfl
  have issues : ∀ l : List Issue, (∀ i ∈ l, i.Fits) →
      Decoder.list Issue.decode (.array (l.map Issue.toJson)) = .ok (l.map id) :=
    fun l fits => Decoder.list_map fun i hi => Issue.decode_toJson (fits i hi)
  rw [hf, ReadResult.decode, Decoder.record, Json.Source.required_text 0 ht,
    Json.Source.optional_text 1 ho, Json.Source.required_eq 2 hs (decode_status succeeded),
    description, Json.Source.withDefault_eq 4 [] hw (issues warnings lines.1),
    Json.Source.withDefault_eq 5 [] he (issues errors lines.2),
    Json.Source.withDefault_eq 6 [] hb (Decoder.texts_map broken),
    Json.Source.required_eq 7 hd duration, List.map_id, List.map_id]
  rfl

/-- A result of which the brackets are too deep does not come back. -/
lemma reread?_written_of_deep (distinct : r.Distinct) (numbers : r.toJson.Exact)
    (deep : Json.depthLimit ≤ r.toJson.height) : reread? r.written = none := by
  rw [reread?, written, Cache.valueOf?, Bytes.decode_ofString]
  dsimp only
  cases read : Json.read r.toJson.compact.toList with
  | error e => rfl
  | ok v =>
    have flat := ((Json.read_compact_eq_ok_iff (distinct_toJson distinct) numbers).1 read).2
    exact absurd deep (Nat.not_le.2 flat)

/-- **What is kept of a result comes back**, but for the examples that are null, if its brackets
are not too deep; otherwise nothing does. -/
theorem reread?_written (distinct : r.Distinct) (h : r.Portable) :
    reread? r.written =
      if r.toJson.height < Json.depthLimit then some r.withoutNulls else none := by
  split_ifs with flat
  · rw [reread?, written, Cache.valueOf?, Bytes.decode_ofString]
    dsimp only
    rw [Json.read_compact (distinct_toJson distinct) h.numbers flat]
    simp only [Except.toOption, Option.bind_some, decode_toJson h]
  · exact reread?_written_of_deep distinct h.numbers (Nat.not_lt.1 flat)

end ReadResult

end ApiCanon
