import ApiCanon.Proofs.Json.Pointers
import ApiCanon.Proofs.OpenApi.Compositions
import ApiCanon.Proofs.OpenApi.Parameters

/-!
# References to schemas

A schema object may refer to another one: itself, as the only part of a combination, or by its items
(`Mentions`).  The type that it stands for then refers to the name of the reference, which is the
text after the last slash of it (`refers_typeOf_iff`).

The reference to a schema of the document is a pointer, and it leads there whatever the name of the
schema is (`target?_referenceTo`).  Its last segment is the name only if nothing in the name is
escaped, so the types refer to the name in exactly these cases (`schema_reference_names`).
-/

namespace ApiCanon.OpenApi

open Json (Value Fields)

/-! ## Types -/

/-- The only item of a list. -/
def onlyItem? : Value → Option Value
  | .array [w] => some w
  | _ => none

/-- What a schema object wraps as the only part of a combination. -/
def wrapped? (v : Value) : Option Value :=
  (v.get? "allOf").bind onlyItem? <|> (v.get? "oneOf").bind onlyItem? <|>
    (v.get? "anyOf").bind onlyItem?

/-- A schema object refers by a reference: itself, by what it wraps, or by the items of its
lists. -/
inductive Mentions (reference : String) : Value → Prop
  | direct {v : Value} (refers : v.stringField? "$ref" = some reference) : Mentions reference v
  | wrapped {v w : Value} (plain : v.stringField? "$ref" = none) (only : wrapped? v = some w)
      (part : Mentions reference w) : Mentions reference v
  | items {v w : Value} (plain : v.stringField? "$ref" = none) (bare : wrapped? v = none)
      (list : v.stringField? "type" = some "array") (has : v.get? "items" = some w)
      (item : Mentions reference w) : Mentions reference v

section Types

variable {v w : Value} {f : Fields} {reference n : String}

lemma not_refers_any : ¬TypeRef.any.Refers n := by
  rintro ⟨⟩

lemma sizeOf_lt_of_onlyItem? (h : onlyItem? v = some w) : sizeOf w < sizeOf v := by
  unfold onlyItem? at h
  split at h
  · obtain rfl := Option.some.inj h
    exact sizeOf_lt_of_mem rfl (List.mem_singleton.2 rfl)
  · cases h

lemma sizeOf_lt_of_wrapped? (h : wrapped? v = some w) : sizeOf w < sizeOf v := by
  have inField : ∀ k, (v.get? k).bind onlyItem? = some w → sizeOf w < sizeOf v := by
    intro k found
    obtain ⟨list, field, only⟩ := Option.bind_eq_some_iff.1 found
    exact (sizeOf_lt_of_onlyItem? only).trans (sizeOf_lt_of_get? field)
  rw [wrapped?, Option.orElse_eq_some, Option.orElse_eq_some] at h
  rcases h with found | ⟨-, found | ⟨-, found⟩⟩
  exacts [inField _ found, inField _ found, inField _ found]

lemma typeAt_eq (key : String) (f : Fields) : typeAt key f = (Fields.get? key f).map typeOf := by
  induction f with
  | nil => rw [typeAt, Fields.get?, Option.map_none]
  | cons p f ih =>
    obtain ⟨k, v⟩ := p
    rw [typeAt, Fields.get?, ih]
    split_ifs <;> rfl

lemma onlyPart_eq (v : Value) : onlyPart v = (onlyItem? v).map typeOf := by
  unfold onlyItem?
  split
  · rw [onlyPart, Option.map_some]
  · rw [onlyPart, Option.map_none]
    assumption

lemma onlyPartAt_eq (key : String) (f : Fields) :
    onlyPartAt key f = ((Fields.get? key f).bind onlyItem?).map typeOf := by
  induction f with
  | nil => rw [onlyPartAt, Fields.get?, Option.bind_none, Option.map_none]
  | cons p f ih =>
    obtain ⟨k, v⟩ := p
    rw [onlyPartAt, Fields.get?, ih]
    split_ifs
    · exact onlyPart_eq v
    · rfl

/-- The type of a schema object, by what it refers to and what it wraps. -/
lemma typeOf_object (f : Fields) : typeOf (.object f) =
    match (Value.object f).stringField? "$ref" with
    | some reference => .named (referenceName reference)
    | none =>
      match wrapped? (.object f) with
      | some w => typeOf w
      | none => plainType f ((Fields.get? "items" f).map typeOf) := by
  have wraps : (onlyPartAt "allOf" f <|> onlyPartAt "oneOf" f <|> onlyPartAt "anyOf" f) =
      (wrapped? (.object f)).map typeOf := by
    rw [onlyPartAt_eq, onlyPartAt_eq, onlyPartAt_eq, wrapped?]
    simp only [Value.get?]
    cases (Fields.get? "allOf" f).bind onlyItem? with
    | some w => rfl
    | none =>
      cases (Fields.get? "oneOf" f).bind onlyItem? <;> rfl
  rw [typeOf, wraps, typeAt_eq]
  unfold Value.stringField? Value.get?
  cases (Fields.get? "$ref" f).bind Value.asString? with
  | some reference => rfl
  | none => cases wrapped? (.object f) <;> rfl

/-- What says itself what it is refers only by its items. -/
lemma refers_plainType_iff {items : Option TypeRef} : (plainType f items).Refers n ↔
    (Value.object f).stringField? "type" = some "array" ∧ ∃ t, items = some t ∧ t.Refers n := by
  have type : (Value.object f).stringField? "type" = (Fields.get? "type" f).bind Value.asString? :=
    rfl
  rw [type]
  unfold plainType
  split
  · next list =>
    rw [list]
    cases items with
    | some t =>
      constructor
      · rintro ⟨⟩
        exact ⟨rfl, t, rfl, ‹t.Refers n›⟩
      · rintro ⟨-, t, same, refers⟩
        obtain rfl := Option.some.inj same
        exact .items refers
    | none =>
      constructor
      · rintro ⟨⟩
        exact absurd ‹TypeRef.Refers .any n› not_refers_any
      · rintro ⟨-, t, none, -⟩
        cases none
  · next text =>
    rw [text]
    split_ifs <;> exact iff_of_false nofun nofun
  · next file =>
    rw [file]
    exact iff_of_false nofun nofun
  · next other notList _ _ said =>
    rw [said]
    exact iff_of_false nofun fun ⟨list, _⟩ => notList (Option.some.inj list)
  · next bare =>
    rw [bare]
    split_ifs <;> exact iff_of_false nofun nofun

lemma typeOf_of_refers (refers : v.stringField? "$ref" = some reference) :
    typeOf v = .named (referenceName reference) := by
  cases v with
  | object f => rw [typeOf_object, refers]
  | null | bool | number | string | array => cases refers

lemma typeOf_of_wrapped? (plain : v.stringField? "$ref" = none) (only : wrapped? v = some w) :
    typeOf v = typeOf w := by
  cases v with
  | object f => rw [typeOf_object, plain, only]
  | null | bool | number | string | array => cases only

lemma typeOf_of_bare (plain : v.stringField? "$ref" = none) (bare : wrapped? v = none) :
    (typeOf v).Refers n ↔
      v.stringField? "type" = some "array" ∧ ∃ w, v.get? "items" = some w ∧
        (typeOf w).Refers n := by
  cases v with
  | object f =>
    rw [typeOf_object, plain, bare]
    dsimp only
    rw [refers_plainType_iff]
    simp only [Option.map_eq_some_iff, exists_exists_and_eq_and, Value.get?]
  | null | bool | number | string | array =>
    simp only [typeOf]
    refine iff_of_false not_refers_any ?_
    rintro ⟨list, -⟩
    cases list

/-- **The type of a schema object** refers to the name of the reference by which the object
refers. -/
theorem refers_typeOf_iff (v : Value) (n : String) :
    (typeOf v).Refers n ↔ ∃ reference, Mentions reference v ∧ referenceName reference = n := by
  constructor
  · intro refers
    generalize size : sizeOf v = m
    induction m using Nat.strongRecOn generalizing v with
    | ind m ih =>
      subst size
      cases plain : v.stringField? "$ref" with
      | some reference =>
        rw [typeOf_of_refers plain] at refers
        cases refers
        exact ⟨reference, .direct plain, rfl⟩
      | none =>
        cases only : wrapped? v with
        | some w =>
          rw [typeOf_of_wrapped? plain only] at refers
          obtain ⟨reference, part, name⟩ := ih _ (sizeOf_lt_of_wrapped? only) w refers rfl
          exact ⟨reference, .wrapped plain only part, name⟩
        | none =>
          obtain ⟨list, w, has, refers⟩ := (typeOf_of_bare plain only).1 refers
          obtain ⟨reference, item, name⟩ := ih _ (sizeOf_lt_of_get? has) w refers rfl
          exact ⟨reference, .items plain only list has item, name⟩
  · rintro ⟨reference, mentions, rfl⟩
    induction mentions with
    | direct refers =>
      rw [typeOf_of_refers refers]
      exact .named _
    | wrapped plain only _ ih => rwa [typeOf_of_wrapped? plain only]
    | items plain bare list has _ ih => exact (typeOf_of_bare plain bare).2 ⟨list, _, has, ih⟩

end Types

/-! ## References -/

/-- The segment by which a pointer leads to a name. -/
def segment (k : String) : String := String.ofList (Json.escapeSegment k.toList)

/-- The reference to the schema of a name. -/
def referenceTo (k : String) : String := "#/components/schemas/" ++ segment k

lemma toList_segment (k : String) : (segment k).toList = Json.escapeSegment k.toList := by
  rw [segment, String.toList_ofList]

lemma segment_eq_self_iff (k : String) : segment k = k ↔ '~' ∉ k.toList ∧ '/' ∉ k.toList := by
  rw [← Json.escapeSegment_eq_self_iff]
  constructor
  · intro same
    rw [← toList_segment, same]
  · intro same
    rw [segment, same, String.ofList_toList]

lemma toList_referenceTo (k : String) : (referenceTo k).toList =
    '#' :: '/' :: ("components".toList ++ '/' :: ("schemas".toList ++ '/' ::
      Json.escapeSegment k.toList)) := by
  have front (s : String) : ("#/components/schemas/" ++ s).toList =
      '#' :: '/' :: ("components".toList ++ '/' :: ("schemas".toList ++ '/' :: s.toList)) := by simp
  have whole := front (segment k)
  rw [toList_segment] at whole
  exact whole

lemma ne_slash_of_mem_escapeSegment {s : List Char} :
    ∀ c ∈ Json.escapeSegment s, (c == '/') = false := by
  intro c mem
  refine beq_eq_false_iff_ne.2 ?_
  rintro rfl
  exact Json.slash_not_mem_escapeSegment s mem

/-- The name of the reference to a schema is the segment of its name. -/
lemma referenceName_referenceTo (k : String) : referenceName (referenceTo k) = segment k := by
  have last := Text.splitAtLast?_append (p := (· == '/'))
    (ne_slash_of_mem_escapeSegment (s := k.toList)) (c := '/') rfl
    ('#' :: '/' :: ("components".toList ++ '/' :: "schemas".toList))
  simp only [List.cons_append, List.append_assoc] at last
  rw [referenceName, toList_referenceTo, last]
  rfl

/-- The names on the way to the schemas of a document. -/
def wayToSchemas : List (List Char) := ["components".toList, "schemas".toList]

lemma ne_slash_of_mem_components : ∀ c ∈ "components".toList, (c == '/') = false := by simp

lemma ne_slash_of_mem_schemas : ∀ c ∈ "schemas".toList, (c == '/') = false := by simp

/-- The reference to a schema goes by its name from where the schemas are. -/
lemma target?_referenceTo_eq (doc : Value) (k : String) :
    target? doc (referenceTo k) = doc.follow (wayToSchemas ++ [k.toList]) := by
  have stripped (r : List Char) : Text.stripPrefix? ['#'] ('#' :: r) = some r := rfl
  rw [target?, toList_referenceTo, stripped, Option.bind_some, Value.pointer?,
    Text.splitAll_append ne_slash_of_mem_components rfl,
    Text.splitAll_append ne_slash_of_mem_schemas rfl,
    Text.splitAll_of_none ne_slash_of_mem_escapeSegment]
  simp only [List.map_cons, List.map_nil, Json.unescapeSegment_escapeSegment]
  rfl

lemma definitions_three (doc : Value) : definitions doc .three =
    ((doc.follow wayToSchemas).bind Value.asObject?).getD [] := by
  have path : "/components/schemas".toList =
      '/' :: ("components".toList ++ '/' :: "schemas".toList) := by decide
  have way : doc.pointer? "/components/schemas".toList = doc.follow wayToSchemas := by
    rw [path, Value.pointer?, Text.splitAll_append ne_slash_of_mem_components rfl,
      Text.splitAll_of_none ne_slash_of_mem_schemas]
    exact congrArg doc.follow (by decide)
  rw [← way]
  rfl

/-- The reference to a schema leads there. -/
theorem target?_referenceTo {doc x : Value} {k : String}
    (has : Fields.get? k (definitions doc .three) = some x) :
    target? doc (referenceTo k) = some x := by
  rw [definitions_three] at has
  rw [target?_referenceTo_eq, Value.follow_append]
  cases found : doc.follow wayToSchemas with
  | none =>
    rw [found] at has
    cases has
  | some w =>
    rw [found] at has
    cases w with
    | object f =>
      rw [Option.bind_some, Value.follow_field, String.ofList_toList]
      exact has
    | null | bool | number | string | array => cases has

/-! ## Places -/

/-- A place of a description that has a type: a parameter, a body, a response or a property. -/
inductive Place where
  | parameter (endpoint : EndpointKey) (name : String) (location : Location)
  | body (endpoint : EndpointKey)
  | response (endpoint : EndpointKey) (status : String)
  | property (schema name : String)

/-- A description has a type at a place. -/
def HasType (a : Ast) (t : TypeRef) : Place → Prop
  | .parameter endpoint name location => ∃ e ∈ a.endpoints, e.key = endpoint ∧
      ∃ p ∈ e.parameters, p.slot = (name, location) ∧ p.schema = t
  | .body endpoint => ∃ e ∈ a.endpoints, e.key = endpoint ∧
      ∃ b, e.requestBody = some b ∧ b.schema = t
  | .response endpoint status => ∃ e ∈ a.endpoints, e.key = endpoint ∧
      ∃ r ∈ e.responses, r.status = status ∧ r.schema = some t
  | .property schema name => ∃ x p, a.schemas.get? schema = some x ∧
      x.properties.get? name = some p ∧ p.type = t

/-- A value has a schema object in the content that is preferred. -/
def HasContent (raw s : Value) : Prop :=
  ∃ media content, preferredMedia? raw = some (media, content) ∧ content.get? "schema" = some s

/-- A document has a schema object for a place: in the object of a parameter, in the content of a
body or of a response, or among the definitions of a schema. -/
def HasSchema (doc s : Value) : Place → Prop
  | .parameter endpoint name location => ∃ o ∈ firstOperations doc, o.key = endpoint ∧
      ∃ t ∈ lastsBy identity (resolved doc o.entries),
        slot? .three t = some (name, location) ∧ t.get? "schema" = some s
  | .body endpoint => ∃ o ∈ firstOperations doc, o.key = endpoint ∧
      ∃ raw t, o.object.get? "requestBody" = some raw ∧ resolve doc raw = .ok t ∧ HasContent t s
  | .response endpoint status => ∃ o ∈ firstOperations doc, o.key = endpoint ∧
      ∃ raw t, (status, raw) ∈ ((o.object.get? "responses").bind Value.asObject?).getD [] ∧
        resolve doc raw = .ok t ∧ HasContent t s
  | .property schema name => ∃ raw, Fields.get? schema (definitions doc .three) = some raw ∧
      (name, s) ∈ lastsBy Prod.fst (composed raw)

section Places

variable {doc s : Value} {r : ReadResult} {a : Ast} {settings : Settings}

lemma exists_described_of_slot? {t : Value} {name : String} {location : Location}
    (slot : slot? .three t = some (name, location)) (has : t.get? "schema" = some s) :
    ∃ p, described? .three t = some p ∧ p.slot = (name, location) ∧ p.schema = typeOf s := by
  obtain ⟨p, describes, here⟩ := Option.map_eq_some_iff.1 slot
  refine ⟨p, describes, here, ?_⟩
  have plain : described? .three t = buildParameter? .three t := rfl
  rw [plain, buildParameter?] at describes
  obtain ⟨n, -, describes⟩ := Option.bind_eq_some_iff.1 describes
  obtain ⟨l, -, describes⟩ := Option.bind_eq_some_iff.1 describes
  obtain rfl := Option.some.inj describes
  have type : schemaField? t = some (typeOf s) := by rw [schemaField?, has, Option.map_some]
  dsimp only [Parameter.withDescription, Parameter.withRequired, Parameter.plain]
  rw [type, Option.getD_some]

lemma HasContent.schemaField?_eq {t : Value} (has : HasContent t s) :
    ((preferredMedia? t).map (·.2)).bind schemaField? = some (typeOf s) := by
  obtain ⟨media, content, preferred, schema⟩ := has
  rw [preferred, Option.map_some, Option.bind_some, schemaField?, schema, Option.map_some]

lemma schema_buildBody {t : Value} (has : HasContent t s) : (buildBody t).schema = typeOf s := by
  rw [buildBody]
  dsimp only
  rw [has.schemaField?_eq, Option.getD_some]

/-- An operation of the document is an endpoint, built from it but for the tags. -/
lemma exists_endpoint (describes : Describes doc .three settings r a) {o : Operation}
    (ho : o ∈ firstOperations doc) : ∃ e ∈ a.endpoints, e.key = o.key ∧
      e.parameters = (o.build doc .three).value.parameters ∧
      e.requestBody = (o.build doc .three).value.requestBody ∧
      e.responses = (o.build doc .three).value.responses := by
  obtain ⟨tags, finished⟩ := settings.finish_eq (o.build doc .three).value
  refine ⟨settings.finish (o.build doc .three).value, ?_, Settings.key_finish _ _, ?_⟩
  · rw [describes.endpoints]
    exact List.mem_map_of_mem ho
  · rw [finished]
    exact ⟨rfl, rfl, rfl⟩

/-- **Where a document has a schema object, the description has its type.** -/
theorem hasType_of_hasSchema (describes : Describes doc .three settings r a) {place : Place}
    (has : HasSchema doc s place) : HasType a (typeOf s) place := by
  cases place with
  | parameter key name location =>
    obtain ⟨o, ho, rfl, t, kept, slot, schema⟩ := has
    obtain ⟨e, he, key, parameters, -⟩ := exists_endpoint describes ho
    obtain ⟨p, described, here, type⟩ := exists_described_of_slot? slot schema
    refine ⟨e, he, key, p, ?_, here, type⟩
    rw [parameters, parameters_build]
    exact List.mem_filterMap.2 ⟨t, kept, described⟩
  | body key =>
    obtain ⟨o, ho, rfl, raw, t, request, led, content⟩ := has
    obtain ⟨e, he, key, -, body, -⟩ := exists_endpoint describes ho
    refine ⟨e, he, key, buildBody t, ?_, schema_buildBody content⟩
    have plain : (o.build doc .three).value.requestBody = (operationBody doc .three
        (effectiveParameters doc o.entries).value o.object).value := rfl
    rw [body, plain, operationBody]
    simp only [request, led]
  | response key status =>
    obtain ⟨o, ho, rfl, raw, t, listed, led, content⟩ := has
    obtain ⟨e, he, key, -, -, responses⟩ := exists_endpoint describes ho
    refine ⟨e, he, key, buildResponse .three status t, ?_, rfl, content.schemaField?_eq⟩
    have plain : (o.build doc .three).value.responses =
        (operationResponses doc .three o.object).value := rfl
    rw [responses, plain, operationResponses]
    dsimp only
    rw [List.map_map]
    refine List.mem_map.2 ⟨(status, raw), listed, ?_⟩
    simp only [Function.comp_apply, led]
  | property schema name =>
    obtain ⟨raw, found, last⟩ := has
    have property := (get?_buildSchema_eq_some_iff schema raw name _).2 ⟨s, last, rfl⟩
    refine ⟨buildSchema schema raw, _, ?_, property, rfl⟩
    rw [describes.schemas, found, Option.map_some]

/-- A description refers to what the types at its places refer to. -/
lemma HasType.refers {t : TypeRef} {place : Place} (has : HasType a t place) {n : String}
    (refers : t.Refers n) : a.Refers n := by
  cases place with
  | parameter =>
    obtain ⟨e, he, -, p, hp, -, rfl⟩ := has
    exact .inl ⟨e, he, .parameter p hp refers⟩
  | body =>
    obtain ⟨e, he, -, b, hb, rfl⟩ := has
    exact .inl ⟨e, he, .body b hb refers⟩
  | response =>
    obtain ⟨e, he, -, r, hr, -, schema⟩ := has
    exact .inl ⟨e, he, .response r hr t schema refers⟩
  | property schema name =>
    obtain ⟨x, p, found, property, rfl⟩ := has
    exact .inr ⟨schema, x, found, name, p, property, refers⟩

end Places

/-- **References to schemas and the names that types have of them.**  In every document of the newer
generation, the reference to a schema leads to it, and its name is no broken dependency of the
description.  Wherever a schema object refers by the reference, the type there refers to the segment
of the name, which is the name exactly if no tilde and no slash is in it.  If no schema has the
segment as its name, then the segment is a broken dependency. -/
theorem schema_reference_names [Grammars] (now : Timestamp) {q : ReadRequest} {doc : Value}
    (h : Opens q doc .three) : ∃ a, (Registry.defaults.read now q).ast = some a ∧
      ∀ k x, Fields.get? k (definitions doc .three) = some x →
        target? doc (referenceTo k) = some x ∧ a.schemas.get? k = some (buildSchema k x) ∧
        ¬a.Dangles k ∧
        ∀ place s, HasSchema doc s place → Mentions (referenceTo k) s →
          ∃ t, HasType a t place ∧ t.referencedName? = some (segment k) ∧
            (t.referencedName? = some k ↔ '~' ∉ k.toList ∧ '/' ∉ k.toList) ∧
            (a.schemas.get? (segment k) = none →
              segment k ∈ (Registry.defaults.read now q).brokenDependencies ∧
                a.unresolved = true) := by
  obtain ⟨a, describes⟩ := describes_of_opens now h
  refine ⟨a, describes.ast, fun k x has => ?_⟩
  have known : a.schemas.get? k = some (buildSchema k x) := by
    rw [describes.schemas, has, Option.map_some]
  refine ⟨target?_referenceTo has, known, fun dangles => ?_, fun place s schema mentions => ?_⟩
  · cases known.symm.trans dangles.2
  · have type := hasType_of_hasSchema describes schema
    have refers : (typeOf s).Refers (segment k) :=
      (refers_typeOf_iff s _).2 ⟨referenceTo k, mentions, referenceName_referenceTo k⟩
    have named := (TypeRef.referencedName?_eq_some_iff _ _).2 refers
    refine ⟨typeOf s, type, named, ?_, fun unknown => ?_⟩
    · rw [named, Option.some_inj]
      exact segment_eq_self_iff k
    · exact describes.reported_of_dangles ⟨type.refers refers, unknown⟩

/-- A schema object of a list, with a reference to its items. -/
def listOf (reference : String) : Value :=
  .object [("type", .string "array"), ("items", .object [("$ref", .string reference)])]

/-- A response with a schema object. -/
def responseWith (schema : Value) : Value :=
  .object [("content", .object [("application/json", .object [("schema", schema)])])]

/-- An operation with a response. -/
def answering (schema : Value) : Operation :=
  ⟨.get, "/u", [], .object [("responses", .object [("200", responseWith schema)])]⟩

/-- A document with a response of a schema object, and with named schemas. -/
def documentWith (schema : Value) (schemas : Fields) : Value :=
  .object [("openapi", .string "3"),
    ("paths", .object [("/u", .object [("get", (answering schema).object)])]),
    ("components", .object [("schemas", .object schemas)])]

/-- A document with a response that refers to a schema by the items of a list. -/
def usersText : String :=
  "\x7b\"openapi\":\"3\",\"paths\":\x7b\"/u\":\x7b\"get\":\x7b\"responses\":\x7b\"200\":\x7b\"content\":" ++
    "\x7b\"application/json\":\x7b\"schema\":\x7b\"type\":\"array\",\"items\":\x7b\"$ref\":" ++
    "\"#/components/schemas/User\"\x7d\x7d\x7d\x7d\x7d\x7d\x7d\x7d\x7d," ++
    "\"components\":\x7b\"schemas\":\x7b\"User\":\x7b\x7d\x7d\x7d\x7d"

def usersDocument : Value :=
  documentWith (listOf "#/components/schemas/User") [("User", .object [])]

theorem schema_reference_names_users : Opens (requestFor usersText) usersDocument .three ∧
    ∃ a t, (Registry.defaults.read ⟨0, 0⟩ (requestFor usersText)).ast = some a ∧
      HasType a t (.response ⟨.get, "/u"⟩ "200") ∧ t.referencedName? = some "User" ∧
      ¬a.Dangles "User" := by
  have opens : Opens (requestFor usersText) usersDocument .three :=
    opens_requestFor (by decide +kernel)
  have reference : referenceTo "User" = "#/components/schemas/User" := by decide +kernel
  have mentions : Mentions (referenceTo "User") (listOf "#/components/schemas/User") := by
    rw [reference]
    exact .items rfl rfl rfl rfl (.direct rfl)
  have schema : HasSchema usersDocument (listOf "#/components/schemas/User")
      (.response ⟨.get, "/u"⟩ "200") :=
    ⟨answering (listOf "#/components/schemas/User"), by decide +kernel, rfl, _, _,
      List.mem_singleton.2 rfl, resolve_of_plain rfl, _, _, rfl, rfl⟩
  obtain ⟨a, read, names⟩ := schema_reference_names ⟨0, 0⟩ opens
  obtain ⟨-, -, whole, types⟩ := names "User" (.object []) (by decide +kernel)
  obtain ⟨t, type, -, name, -⟩ := types _ _ schema mentions
  exact ⟨opens, a, t, read, type, name.2 (by decide), whole⟩

/-- A document with a schema of a name with a slash, and a response that refers to it. -/
def slashText : String :=
  "\x7b\"openapi\":\"3\",\"paths\":\x7b\"/u\":\x7b\"get\":\x7b\"responses\":\x7b\"200\":\x7b\"content\":" ++
    "\x7b\"application/json\":\x7b\"schema\":\x7b\"$ref\":\"#/components/schemas/a~1b\"" ++
    "\x7d\x7d\x7d\x7d\x7d\x7d\x7d\x7d,\"components\":\x7b\"schemas\":\x7b\"a/b\":\x7b\x7d\x7d\x7d\x7d"

/-- The schema object that refers to the schema of a name with a slash. -/
def slashSchema : Value := .object [("$ref", .string "#/components/schemas/a~1b")]

def slashDocument : Value := documentWith slashSchema [("a/b", .object [])]

/-- **A schema of a name with a slash is not referred to by its name.**  The reference leads to the
schema, but the type refers to the segment, which is reported as a broken dependency. -/
theorem not_named_of_slash : ∃ a place,
    (Registry.defaults.read ⟨0, 0⟩ (requestFor slashText)).ast = some a ∧
      a.schemas.get? "a/b" = some (buildSchema "a/b" (.object [])) ∧
      HasSchema slashDocument slashSchema place ∧
      Mentions (referenceTo "a/b") slashSchema ∧
      (∀ t, HasType a t place → t.referencedName? = some "a~1b") ∧
      "a~1b" ∈ (Registry.defaults.read ⟨0, 0⟩ (requestFor slashText)).brokenDependencies := by
  have opens : Opens (requestFor slashText) slashDocument .three :=
    opens_requestFor (by decide +kernel)
  obtain ⟨a, describes⟩ := describes_of_opens ⟨0, 0⟩ opens
  have reference : referenceTo "a/b" = "#/components/schemas/a~1b" := by decide +kernel
  have first : firstOperations slashDocument = [answering slashSchema] := by decide +kernel
  have schema : HasSchema slashDocument slashSchema (.response ⟨.get, "/u"⟩ "200") :=
    ⟨answering slashSchema, first ▸ List.mem_singleton.2 rfl, rfl, _, _,
      List.mem_singleton.2 rfl, resolve_of_plain rfl, _, _, rfl, rfl⟩
  have mentions : Mentions (referenceTo "a/b") slashSchema := .direct (reference ▸ rfl)
  have name : referenceName "#/components/schemas/a~1b" = "a~1b" := by decide +kernel
  have schemas : definitions slashDocument .three = [("a/b", .object [])] := by decide +kernel
  have types : ((answering slashSchema).build slashDocument .three).value.responses.map
      Response.schema = [some (.named "a~1b")] := by decide +kernel
  refine ⟨a, _, describes.ast, ?_, schema, mentions, ?_, ?_⟩
  · rw [describes.schemas, schemas]
    rfl
  · rintro t ⟨e, he, -, r, hr, -, type⟩
    rw [describes.endpoints, first] at he
    obtain rfl := List.mem_singleton.1 he
    have listed : some t ∈ ((answering slashSchema).build slashDocument .three).value.responses.map
        Response.schema := type ▸ List.mem_map_of_mem hr
    rw [types] at listed
    obtain rfl := Option.some.inj (List.mem_singleton.1 listed)
    rfl
  · refine (describes.reported_of_dangles ⟨?_, ?_⟩).1
    · refine (hasType_of_hasSchema describes schema).refers ?_
      rw [typeOf_of_refers rfl, name]
      exact .named _
    · rw [describes.schemas, schemas]
      rfl

end ApiCanon.OpenApi
