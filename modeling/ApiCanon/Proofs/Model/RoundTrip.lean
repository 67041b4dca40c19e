import ApiCanon.Proofs.Json.RoundTrip
import ApiCanon.Proofs.Model.Encoding
import ApiCanon.Proofs.Time.Moments

/-!
# Descriptions written and read back

A description without an example that is null is decoded from its own JSON form, however deep that
is, if the moment of reading comes back from its text (`Ast.round_trip`).  It has the same JSON form
afterwards.

As a text the JSON form goes through one more reader, which counts brackets.  So the description
comes back from its text exactly if fewer brackets are inside of one another than that reader
allows.  Types are where a description may be deep: each list in a list of lists has brackets of its
own, and a description with a type that is deep enough is written but not read back
(`Ast.not_round_trip_of_nested`).
-/

namespace ApiCanon

open Json (Value)

/-! ## Nothing is lost -/

lemma Response.withoutNull_eq_self {r : Response} (h : r.example? ≠ some .null) :
    r.withoutNull = r := by
  obtain ⟨status, description, schema, example?⟩ := r
  cases example? with
  | none => rfl
  | some v =>
    cases v with
    | null => exact absurd rfl h
    | _ => rfl

lemma Endpoint.withoutNulls_eq_self {e : Endpoint}
    (h : ∀ r ∈ e.responses, r.example? ≠ some .null) : e.withoutNulls = e := by
  have same : e.responses.map Response.withoutNull = e.responses.map id :=
    List.map_congr_left fun r hr => Response.withoutNull_eq_self (h r hr)
  rw [withoutNulls, same, List.map_id]

lemma Ast.withoutNulls_eq_self {a : Ast} (h : ¬a.HasNullExample) : a.withoutNulls = a := by
  have same : a.endpoints.map Endpoint.withoutNulls = a.endpoints.map id :=
    List.map_congr_left fun e he =>
      Endpoint.withoutNulls_eq_self fun r hr null => h ⟨e, he, r, hr, null⟩
  rw [withoutNulls, same, List.map_id]

lemma Timestamp.reread_eq_ok_iff {t : Option Timestamp} :
    Timestamp.reread t = .ok t ↔ ∀ s ∈ t, s.Valid := by
  cases t with
  | none => exact iff_of_true rfl nofun
  | some t =>
    have valid : (∀ s ∈ some t, s.Valid) ↔ Timestamp.read t.text.toList = .ok t := by
      simp [Timestamp.read_text_eq_ok_iff]
    rw [valid, Timestamp.reread, Timestamp.decode]
    cases Timestamp.read t.text.toList <;> simp [Except.map]

namespace Ast

/-- Whether the moment of reading, if it is known, comes back from its text. -/
def Timed (a : Ast) : Prop := ∀ t ∈ a.metadata.parsedAt, t.Valid

lemma decode_toJson_eq_ok_iff {a : Ast} (full : ¬a.HasNullExample) :
    Ast.decode a.toJson = .ok a ↔ a.Timed := by
  have moment (t : Option Timestamp) : a.readAt t = a ↔ t = a.metadata.parsedAt := by
    constructor
    · intro same
      exact congrArg (fun b : Ast => b.metadata.parsedAt) same
    · rintro rfl
      rfl
  rw [Ast.decode_toJson, withoutNulls_eq_self full, Timed, ← Timestamp.reread_eq_ok_iff]
  cases Timestamp.reread a.metadata.parsedAt with
  | error e => simp [Except.map]
  | ok t => simp [Except.map, moment]

/-- What the text of a description is read as, and when it is read. -/
lemma read_text_iff {a b : Ast} (examples : a.Distinct) (extra : a.metadata.Distinct)
    (full : ¬a.HasNullExample) (timed : a.Timed) (exact : a.toJson.Exact) :
    (∃ v, Json.read a.toJson.compact.toList = .ok v ∧ Ast.decode v = .ok b) ↔
      b = a ∧ a.toJson.height < Json.depthLimit := by
  have text (v : Value) : Json.read a.toJson.compact.toList = .ok v ↔
      v = a.toJson ∧ a.toJson.height < Json.depthLimit :=
    Json.read_compact_eq_ok_iff (Ast.distinct_toJson examples extra) exact
  have decoded := (decode_toJson_eq_ok_iff full).2 timed
  constructor
  · rintro ⟨v, read, hb⟩
    obtain ⟨rfl, flat⟩ := (text v).1 read
    rw [decoded] at hb
    exact ⟨(Except.ok.inj hb).symm, flat⟩
  · rintro ⟨rfl, flat⟩
    exact ⟨_, (text _).2 ⟨rfl, flat⟩, decoded⟩

/-- **A description without null examples is what its JSON form says**, given that its moment of
reading comes back; and what its text says, given that the texts of its numbers stand for the
numbers and that its brackets are not too deep. -/
theorem round_trip {a : Ast} (examples : a.Distinct) (extra : a.metadata.Distinct)
    (full : ¬a.HasNullExample) :
    (Ast.decode a.toJson = .ok a ↔ a.Timed) ∧
      (a.Timed → (Ast.decode a.toJson).map Ast.toJson = .ok a.toJson ∧
        (a.toJson.Exact → ∀ b,
          (∃ v, Json.read a.toJson.compact.toList = .ok v ∧ Ast.decode v = .ok b) ↔
            b = a ∧ a.toJson.height < Json.depthLimit)) := by
  have decoded := decode_toJson_eq_ok_iff full
  refine ⟨decoded, fun timed => ⟨?_, fun exact b => ?_⟩⟩
  · rw [decoded.2 timed]
    rfl
  · exact read_text_iff examples extra full timed exact

end Ast

/-! ## Lists of lists -/

namespace TypeRef

/-- Each list has brackets of its own. -/
lemma height_toJson_nested (n : Nat) (t : TypeRef) :
    (nested n t).toJson.height = t.toJson.height + n := by
  induction n with
  | zero => rfl
  | succ n ih =>
    simp only [nested, toJson, Value.height, Value.heightOfFields, ih]
    omega

lemma exact_toJson (t : TypeRef) : t.toJson.Exact := by
  induction t with
  | named n => simp [toJson]
  | primitive n => simp [toJson]
  | array t ih => simpa [toJson] using ih

end TypeRef

namespace Ast

/-- A description of one operation, read at some moment, which answers with lists of lists. -/
def nested (n : Nat) (t : Timestamp) : Ast where
  endpoints := [{ Endpoint.plain .get "/a" with
    responses := [⟨"200", none, some (.nested n (.primitive "string")), some (.array [])⟩] }]
  schemas := .empty
  metadata := ⟨"openapi", none, none, some t, SortedMap.empty.insert "specVersion" (.string "3.x")⟩
  unresolved := false

section Nested

variable (n : Nat) (t : Timestamp)

lemma timed_nested_iff : (nested n t).Timed ↔ t.Valid :=
  ⟨fun timed => timed t rfl, fun valid _ same => Option.some.inj same ▸ valid⟩

lemma distinct_nested : (nested n t).Distinct := by
  intro e he r hr v hv
  obtain rfl := List.mem_singleton.1 he
  obtain rfl := List.mem_singleton.1 hr
  cases hv
  exact .array nofun

lemma distinct_metadata_nested : (nested n t).metadata.Distinct := by
  intro v hv
  obtain rfl := List.mem_singleton.1 hv
  exact .string _

lemma not_hasNullExample_nested : ¬(nested n t).HasNullExample := by
  rintro ⟨e, he, r, hr, null⟩
  obtain rfl := List.mem_singleton.1 he
  obtain rfl := List.mem_singleton.1 hr
  cases null

lemma exact_nested : (nested n t).toJson.Exact := by
  simp [nested, toJson, Endpoint.toJson, Endpoint.plain, Response.toJson, Metadata.toJson,
    textField, textsField, SortedMap.empty, SortedMap.insert, SortedMap.insertEntry,
    SortedMap.isEmpty, Method.toJson, TypeRef.exact_toJson]

lemma height_nested : (nested n t).toJson.height = n + 6 := by
  simp [nested, toJson, Endpoint.toJson, Endpoint.plain, Response.toJson, Metadata.toJson,
    textField, textsField, SortedMap.empty, SortedMap.insert, SortedMap.insertEntry,
    SortedMap.isEmpty, Method.toJson, TypeRef.height_toJson_nested, TypeRef.toJson, Value.height,
    Value.heightOfFields, Value.heightOfItems]
  omega

end Nested

/-- The second that was put in at the end of 2016, a half of it over. -/
def leapSecond : Timestamp := ⟨1483228799, 1500000000⟩

/-- As many nanoseconds as in a leap second, but not at the end of a minute. -/
def strayLeapSecond : Timestamp := ⟨1483228798, 1500000000⟩

/-- Lists of lists of texts, read in a leap second, come back. -/
theorem round_trip_nested :
    Ast.decode (nested 2 leapSecond).toJson = .ok (nested 2 leapSecond) ∧
      ∃ v, Json.read (nested 2 leapSecond).toJson.compact.toList = .ok v ∧
        Ast.decode v = .ok (nested 2 leapSecond) := by
  obtain ⟨decoded, back⟩ := round_trip (distinct_nested 2 leapSecond)
    (distinct_metadata_nested 2 leapSecond) (not_hasNullExample_nested 2 leapSecond)
  have timed : (nested 2 leapSecond).Timed := (timed_nested_iff _ _).2 ⟨by decide, by decide⟩
  have flat : (nested 2 leapSecond).toJson.height < Json.depthLimit := by
    rw [height_nested]
    decide
  exact ⟨decoded.2 timed, ((back timed).2 (exact_nested 2 _) _).2 ⟨rfl, flat⟩⟩

/-- **Not every description comes back**: if its types are too deep, the text of its JSON form is
not read; and not every number of nanoseconds that a moment may have comes back from its text. -/
theorem not_round_trip_of_nested :
    (¬(nested 130 leapSecond).HasNullExample ∧ (nested 130 leapSecond).toJson.Exact ∧
        ¬∃ v, Json.read (nested 130 leapSecond).toJson.compact.toList = .ok v) ∧
      ¬(nested 2 strayLeapSecond).HasNullExample ∧
        Ast.decode (nested 2 strayLeapSecond).toJson ≠ .ok (nested 2 strayLeapSecond) := by
  refine ⟨⟨not_hasNullExample_nested _ _, exact_nested _ _, ?_⟩, not_hasNullExample_nested _ _, ?_⟩
  · rintro ⟨v, read⟩
    have distinct := Ast.distinct_toJson (distinct_nested 130 leapSecond)
      (distinct_metadata_nested 130 leapSecond)
    have flat := ((Json.read_compact_eq_ok_iff distinct (exact_nested _ _)).1 read).2
    rw [height_nested] at flat
    exact absurd flat (by decide)
  · intro decoded
    have timed := (decode_toJson_eq_ok_iff (not_hasNullExample_nested _ _)).1 decoded
    obtain ⟨-, second⟩ := (timed_nested_iff _ _).1 timed
    exact absurd second (by decide)

end Ast

end ApiCanon
