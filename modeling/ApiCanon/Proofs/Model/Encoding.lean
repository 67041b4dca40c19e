import ApiCanon.Model.Decode
import ApiCanon.Model.Encode
import ApiCanon.Proofs.Collection.SortedMap
import ApiCanon.Proofs.Json.Records
import ApiCanon.Proofs.Model.Documents

/-!
# Descriptions and their JSON form

Each record of a description is decoded from its own JSON form.  One thing is lost on the way: an
example that is null is written as null, and a field that is null counts as absent.  So what comes
back is the description without such examples (`Ast.withoutNulls`), which is the description
itself exactly if there are none (`Ast.structurallyEq_withoutNulls_iff`).

The moment of reading is a text that has its own reader; what that reader makes of it is left open
here (`Timestamp.reread`).
-/

namespace ApiCanon

open Json (Value Fields Decoder DecodeError Outcome Source)

/-! ## Fields that may be left out -/

@[simp] lemma get?_textField (k l : String) (s : Option String) :
    Fields.get? k (textField l s) = if l = k then s.map .string else none := by
  cases s <;> simp [textField, Fields.get?]

@[simp] lemma get?_textsField (k l : String) (t : List String) :
    Fields.get? k (textsField l t) =
      if l = k ∧ t ≠ [] then some (.array (t.map .string)) else none := by
  cases t <;> simp [textsField, Fields.get?]

/-- A list of texts that is written only if it is not empty. -/
lemma withDefault_texts (index : Nat) {f : Fields} {k : String} {t : List String}
    (h : Fields.get? k f = if t ≠ [] then some (.array (t.map .string)) else none) :
    (Source.fields f).withDefault index k (.list .text) [] = .value t := by
  by_cases none : t = []
  · subst none
    exact Source.withDefault_missing index [] h
  · rw [if_pos none] at h
    exact Source.withDefault_eq index [] h (Decoder.texts_map t)

/-! ## Types and schemas -/

namespace TypeRef

lemma toJson_ne_null (t : TypeRef) : t.toJson ≠ .null := by
  cases t <;> exact nofun

lemma decodeAt_toJson (inner : Bool) (t : TypeRef) : decodeAt inner t.toJson = .ok t := by
  induction t generalizing inner with
  | named n =>
    have kind : TypeKind.decode inner (.string "named") = .ok .named := rfl
    simp [toJson, decodeAt, kind, decodeContent, Decoder.text, Except.map, bind, Except.bind]
  | primitive n =>
    have kind : TypeKind.decode inner (.string "primitive") = .ok .primitive := rfl
    simp [toJson, decodeAt, kind, decodeContent, Decoder.text, Except.map, bind, Except.bind]
  | array t ih =>
    have kind : TypeKind.decode inner (.string "array") = .ok .array := rfl
    simp [toJson, decodeAt, kind, decodeContent, ih, Except.map, bind, Except.bind]

lemma decode_toJson (t : TypeRef) : decode t.toJson = .ok t := decodeAt_toJson false t

end TypeRef

lemma Property.decode_toJson (p : Property) : Property.decode p.toJson = .ok p := by
  rw [Property.toJson, Property.decode, Decoder.record,
    Source.required_eq 0 (by simp) p.type.decode_toJson,
    Source.optional_text 1 (x := p.description) (by simp),
    Source.withDefault_bool 2 (b := p.required) false (by simp)]
  rfl

/-- A map of values that decode. -/
lemma decodeMap_entries {α : Type} {d : Decoder α} {enc : α → Value} {m : SortedMap α}
    (back : ∀ p ∈ m.entries, d (enc p.2) = .ok p.2) :
    decodeMap d (.object (m.entries.map fun p => (p.1, enc p.2))) = .ok m := by
  rw [decodeMap, Decoder.entries_map (g := id) back]
  have same : (m.entries.map fun p => (p.1, id p.2)) = m.entries := List.map_id _
  rw [same, Except.map, SortedMap.ofList_entries]

lemma Schema.decode_toJson (s : Schema) : Schema.decode s.toJson = .ok s := by
  rw [Schema.toJson, Schema.decode, Decoder.record,
    Source.required_text 0 (s := s.name) (by simp),
    Source.optional_text 1 (x := s.description) (by simp),
    Source.withDefault_eq 2 _ (by simp)
      (decodeMap_entries (m := s.properties) fun p _ => p.2.decode_toJson),
    withDefault_texts 3 (t := s.enumValues) (by simp)]
  rfl

/-! ## Endpoints -/

lemma Method.decode_toJson (m : Method) : Method.decode m.toJson = .ok m := by
  cases m <;> rfl

lemma Location.decode_toJson (l : Location) : Location.decode l.toJson = .ok l := by
  cases l <;> rfl

lemma Parameter.decode_toJson (p : Parameter) : Parameter.decode p.toJson = .ok p := by
  rw [Parameter.toJson, Parameter.decode, Decoder.record,
    Source.required_text 0 (s := p.name) (by simp),
    Source.required_eq 1 (by simp) p.location.decode_toJson,
    Source.withDefault_bool 2 (b := p.required) false (by simp),
    Source.optional_text 3 (x := p.description) (by simp),
    Source.required_eq 4 (by simp) p.schema.decode_toJson]
  rfl

lemma RequestBody.decode_toJson (b : RequestBody) : RequestBody.decode b.toJson = .ok b := by
  rw [RequestBody.toJson, RequestBody.decode, Decoder.record,
    Source.required_text 0 (s := b.contentType) (by simp),
    Source.optional_text 1 (x := b.description) (by simp),
    Source.withDefault_bool 2 (b := b.required) false (by simp),
    Source.required_eq 3 (by simp) b.schema.decode_toJson]
  rfl

/-- The response without its example if that is null. -/
def Response.withoutNull (r : Response) : Response :=
  { r with example? := r.example?.filter fun v => !v.isNull }

lemma Response.decode_toJson (r : Response) : Response.decode r.toJson = .ok r.withoutNull := by
  obtain ⟨status, description, schema, example?⟩ := r
  rw [Response.toJson, Response.decode, Decoder.record,
    Source.required_text 0 (s := status) (by simp),
    Source.optional_text 1 (x := description)
      (by cases schema <;> cases example? <;> simp),
    Source.optional_eq 2 (x := schema) (by cases schema <;> cases example? <;> simp)
      (fun t _ => t.decode_toJson) (fun t _ => t.toJson_ne_null),
    Source.optional_any 3 (x := example?) (by cases schema <;> cases example? <;> simp)]
  rfl

/-- The endpoint without examples that are null. -/
def Endpoint.withoutNulls (e : Endpoint) : Endpoint :=
  { e with responses := e.responses.map Response.withoutNull }

lemma RequestBody.toJson_ne_null (b : RequestBody) : b.toJson ≠ .null := nofun

lemma Endpoint.decode_toJson (e : Endpoint) : Endpoint.decode e.toJson = .ok e.withoutNulls := by
  obtain ⟨method, path, summary, description, operationId, parameters, body, responses, tags,
    deprecated, enhanced⟩ := e
  rw [Endpoint.toJson, Endpoint.decode, Decoder.record,
    Source.required_eq 0 (by cases body <;> simp) method.decode_toJson,
    Source.required_text 1 (s := path) (by cases body <;> simp),
    Source.optional_text 2 (x := summary) (by cases body <;> simp),
    Source.optional_text 3 (x := description) (by cases body <;> simp),
    Source.optional_text 4 (x := operationId) (by cases body <;> simp),
    Source.withDefault_eq 5 (v := .array (parameters.map Parameter.toJson)) []
      (by cases body <;> simp) (Decoder.list_map (g := id) fun p _ => p.decode_toJson),
    Source.optional_eq 6 (x := body) (by cases body <;> simp) (fun b _ => b.decode_toJson)
      (fun b _ => b.toJson_ne_null),
    Source.withDefault_eq 7 (v := .array (responses.map Response.toJson)) []
      (by cases body <;> simp) (Decoder.list_map fun r _ => r.decode_toJson),
    withDefault_texts 8 (t := tags) (by cases body <;> simp),
    Source.withDefault_bool 9 (b := deprecated) false (by cases body <;> simp),
    Source.optional_text 10 (x := enhanced) (by cases body <;> simp), List.map_id]
  rfl

/-! ## Whole descriptions -/

/-- What is read in the text of a moment. -/
def Timestamp.reread : Option Timestamp → Except DecodeError (Option Timestamp)
  | some t => (Timestamp.decode (.string t.text)).map some
  | none => .ok none

/-- Values kept under keys, which are written only if there are any. -/
lemma withDefault_extra (index : Nat) {f : Fields} {k : String} {m : SortedMap Value}
    (h : Fields.get? k f = if m.isEmpty then none else some (.object m.entries)) :
    (Source.fields f).withDefault index k (decodeMap .any) .empty = .value m := by
  by_cases none : m.isEmpty = true
  · rw [if_pos none] at h
    have empty : m = .empty := SortedMap.ext_entries (List.isEmpty_iff.1 none)
    rw [Source.withDefault_missing index _ h, empty]
  · rw [if_neg none] at h
    have all : decodeMap .any (.object (m.entries.map fun p => (p.1, id p.2))) = .ok m :=
      decodeMap_entries fun _ _ => rfl
    have same : (m.entries.map fun p => (p.1, id p.2)) = m.entries := List.map_id _
    rw [same] at all
    exact Source.withDefault_eq index _ h all

/-- The moment comes to what is read in its text. -/
lemma optional_stamp (index : Nat) {f : Fields} {k : String} {t : Option Timestamp}
    (h : Fields.get? k f = t.map fun t => .string t.text) :
    (∃ u, Timestamp.reread t = .ok u ∧
        (Source.fields f).optional index k Timestamp.decode = .value u) ∨
      ∃ e place, Timestamp.reread t = .error e ∧
        (Source.fields f).optional index k Timestamp.decode = .fault place e := by
  cases t with
  | none => exact Or.inl ⟨none, rfl, Source.withDefault_missing index none h⟩
  | some t =>
    have read : Timestamp.reread (some t) = (Timestamp.decode (.string t.text)).map some := rfl
    have decode : Timestamp.decode.optional (.string t.text) =
      (Timestamp.decode (.string t.text)).map some := rfl
    rw [← read] at decode
    cases hr : Timestamp.reread (some t) with
    | ok u =>
      rw [hr] at decode
      exact Or.inl ⟨u, rfl, Source.withDefault_eq index none h decode⟩
    | error e =>
      rw [hr] at decode
      obtain ⟨place, fault⟩ := Source.withDefault_fault index none h decode
      exact Or.inr ⟨e, place, rfl, fault⟩

/-- What comes back of the data about a source, as far as the text of the moment is read. -/
lemma Metadata.decode_toJson (m : Metadata) :
    Metadata.decode m.toJson =
      (Timestamp.reread m.parsedAt).map fun t => { m with parsedAt := t } := by
  obtain ⟨f, hf, sourceType, name, version, parsedAt, extra⟩ : ∃ f, m.toJson = .object f ∧
      Fields.get? "sourceType" f = some (.string m.sourceType) ∧
      Fields.get? "projectName" f = m.projectName.map .string ∧
      Fields.get? "projectVersion" f = m.projectVersion.map .string ∧
      (Fields.get? "parsedAt" f = m.parsedAt.map fun t => .string t.text) ∧
      Fields.get? "extra" f = if m.extra.isEmpty then none else some (.object m.extra.entries) := by
    refine ⟨_, rfl, ?_, ?_, ?_, ?_, ?_⟩ <;> cases m.extra.isEmpty <;> simp <;> rfl
  rw [hf, Metadata.decode, Decoder.record, Source.required_text 0 sourceType,
    Source.optional_text 1 name, Source.optional_text 2 version, withDefault_extra 4 extra]
  rcases optional_stamp 3 parsedAt with ⟨u, read, value⟩ | ⟨e, place, read, fault⟩
  · rw [value, read]
    rfl
  · rw [fault, read]
    rfl

/-- The description without examples that are null. -/
def Ast.withoutNulls (a : Ast) : Ast :=
  { a with endpoints := a.endpoints.map Endpoint.withoutNulls }

/-- The description with another moment of reading. -/
def Ast.readAt (a : Ast) (t : Option Timestamp) : Ast :=
  { a with metadata := { a.metadata with parsedAt := t } }

/-- **What comes back of a description**: all but the examples that are null, as far as the text
of the moment of reading is read. -/
theorem Ast.decode_toJson (a : Ast) :
    Ast.decode a.toJson = (Timestamp.reread a.metadata.parsedAt).map a.withoutNulls.readAt := by
  obtain ⟨f, hf, endpoints, schemas, metadata, unresolved⟩ : ∃ f, a.toJson = .object f ∧
      Fields.get? "endpoints" f = some (.array (a.endpoints.map Endpoint.toJson)) ∧
      Fields.get? "schemas" f =
        some (.object (a.schemas.entries.map fun p => (p.1, p.2.toJson))) ∧
      Fields.get? "metadata" f = some a.metadata.toJson ∧
      Fields.get? "unresolved" f = some (.bool a.unresolved) := by
    refine ⟨_, rfl, ?_, ?_, ?_, ?_⟩ <;> simp
  rw [hf, Ast.decode, Decoder.record,
    Source.required_eq 0 endpoints (Decoder.list_map fun e _ => e.decode_toJson),
    Source.required_eq 1 schemas (decodeMap_entries fun p _ => p.2.decode_toJson),
    Source.withDefault_bool 3 false unresolved]
  have decoded := a.metadata.decode_toJson
  cases hr : Timestamp.reread a.metadata.parsedAt with
  | ok t =>
    rw [hr] at decoded
    rw [Source.required_eq 2 metadata decoded]
    rfl
  | error e =>
    rw [hr] at decoded
    obtain ⟨place, fault⟩ := Source.required_fault 2 metadata decoded
    rw [fault]
    rfl

/-! ## What is lost -/

/-- Some example is null. -/
def Ast.HasNullExample (a : Ast) : Prop :=
  ∃ e ∈ a.endpoints, ∃ r ∈ e.responses, r.example? = some .null

lemma Json.Value.same_refl {v : Value} (h : v.Distinct) : v.same v = true :=
  (Json.Value.same_iff_alike h h).2 (Json.Value.alike_refl v)

lemma Response.same_withoutNull_iff {r : Response} (h : r.Distinct) :
    r.withoutNull.same r = true ↔ r.example? ≠ some .null := by
  obtain ⟨status, description, schema, example?⟩ := r
  cases example? with
  | none => simp [withoutNull, same]
  | some v =>
    have self := Json.Value.same_refl (h v rfl)
    by_cases null : v = .null
    · subst null
      have dropped : (some Value.null).filter (fun v => !v.isNull) = none := rfl
      simp [withoutNull, same, dropped]
    · have kept : (some v).filter (fun v => !v.isNull) = some v := by
        cases v <;> first | rfl | exact absurd rfl null
      simp [withoutNull, same, kept, self, null]

lemma Endpoint.sameResponses_iff {rs : List Response} (h : ∀ r ∈ rs, r.Distinct) :
    sameResponses (rs.map Response.withoutNull) rs = true ↔
      ∀ r ∈ rs, r.example? ≠ some .null := by
  induction rs with
  | nil => simp [sameResponses]
  | cons r rs ih =>
    rw [List.map_cons, sameResponses, Bool.and_eq_true,
      Response.same_withoutNull_iff (h r List.mem_cons_self),
      ih fun s hs => h s (List.mem_cons_of_mem r hs), List.forall_mem_cons]

lemma Endpoint.same_withoutNulls_iff {e : Endpoint} (h : ∀ r ∈ e.responses, r.Distinct) :
    e.withoutNulls.same e = true ↔ ∀ r ∈ e.responses, r.example? ≠ some .null := by
  rw [← Endpoint.sameResponses_iff h]
  simp [same, withoutNulls]

lemma Ast.sameEndpoints_iff {es : List Endpoint} (h : ∀ e ∈ es, ∀ r ∈ e.responses, r.Distinct) :
    sameEndpoints (es.map Endpoint.withoutNulls) es = true ↔
      ∀ e ∈ es, ∀ r ∈ e.responses, r.example? ≠ some .null := by
  induction es with
  | nil => simp [sameEndpoints]
  | cons e es ih =>
    rw [List.map_cons, sameEndpoints, Bool.and_eq_true,
      Endpoint.same_withoutNulls_iff (h e List.mem_cons_self),
      ih fun f hf => h f (List.mem_cons_of_mem e hf), List.forall_mem_cons]

lemma Ast.sameExtra_refl {l : List (String × Value)} (h : ∀ p ∈ l, p.2.Distinct) :
    sameExtra l l = true := by
  induction l with
  | nil => rfl
  | cons p l ih =>
    simp [sameExtra, Json.Value.same_refl (h p List.mem_cons_self),
      ih fun q hq => h q (List.mem_cons_of_mem p hq)]

/-- What comes back equals the description exactly if no example is null. -/
theorem Ast.structurallyEq_withoutNulls_iff {a : Ast} (examples : a.Distinct)
    (extra : a.metadata.Distinct) (t : Option Timestamp) :
    (a.withoutNulls.readAt t).structurallyEq a = true ↔ ¬a.HasNullExample := by
  have endpoints := Ast.sameEndpoints_iff examples
  have self : sameExtra a.metadata.extra.entries a.metadata.extra.entries = true :=
    Ast.sameExtra_refl fun p hp => extra p.2 (List.mem_map.2 ⟨p, hp, rfl⟩)
  simp only [structurallyEq, withoutNulls, readAt, endpoints, self, BEq.rfl, Bool.and_true,
    HasNullExample, not_exists, not_and, ne_eq]

lemma Response.same_refl {r : Response} (h : r.Distinct) : r.same r = true := by
  obtain ⟨status, description, schema, example?⟩ := r
  cases example? with
  | none => simp [same]
  | some v => simp [same, Json.Value.same_refl (h v rfl)]

lemma Endpoint.sameResponses_refl {rs : List Response} (h : ∀ r ∈ rs, r.Distinct) :
    sameResponses rs rs = true := by
  induction rs with
  | nil => rfl
  | cons r rs ih =>
    rw [sameResponses, Response.same_refl (h r List.mem_cons_self),
      ih fun s hs => h s (List.mem_cons_of_mem r hs), Bool.and_self]

lemma Ast.sameEndpoints_refl {es : List Endpoint} (h : ∀ e ∈ es, ∀ r ∈ e.responses, r.Distinct) :
    sameEndpoints es es = true := by
  induction es with
  | nil => rfl
  | cons e es ih =>
    have self : e.same e = true := by
      simp [Endpoint.same, Endpoint.sameResponses_refl (h e List.mem_cons_self)]
    rw [sameEndpoints, self, ih fun f hf => h f (List.mem_cons_of_mem e hf), Bool.and_self]

lemma Ast.structurallyEq_refl {a : Ast} (examples : a.Distinct) (extra : a.metadata.Distinct) :
    a.structurallyEq a = true := by
  have endpoints := Ast.sameEndpoints_refl examples
  have self : sameExtra a.metadata.extra.entries a.metadata.extra.entries = true :=
    Ast.sameExtra_refl fun p hp => extra p.2 (List.mem_map.2 ⟨p, hp, rfl⟩)
  simp only [structurallyEq, endpoints, self, BEq.rfl, Bool.and_true]

end ApiCanon
