import ApiCanon.Model.Encode
import ApiCanon.Proofs.Collection.SortedMap
import ApiCanon.Proofs.Json.Documents

/-!
# Documents in descriptions

A description holds documents in two places: the examples of responses and the extra values.  In
all that sources give, no object in them has two fields of one name.  Then none has in the JSON
form of the description either (`Ast.distinct_toJson`), as the names of every record are distinct
and the keys of a map are.
-/

namespace ApiCanon

open Json (Value Fields)

/-- No object in an example has two fields of one name. -/
def Response.Distinct (r : Response) : Prop := ∀ v ∈ r.example?, v.Distinct

/-- No object in an example of a description has two fields of one name. -/
def Ast.Distinct (a : Ast) : Prop := ∀ e ∈ a.endpoints, ∀ r ∈ e.responses, r.Distinct

/-- No object in an extra value has two fields of one name. -/
def Metadata.Distinct (m : Metadata) : Prop := ∀ v ∈ m.extra.values, v.Distinct

/-! ## Records -/

namespace Json.Fields

/-- The fields have distinct names, all of them from a list, and values that are distinct. -/
structure From (names : List String) (f : Fields) : Prop where
  keys : (f.map (·.1)).Sublist names
  values : ∀ p ∈ f, p.2.Distinct

namespace From

lemma one (k : String) {v : Value} (h : v.Distinct) : From [k] [(k, v)] := by
  refine ⟨.refl _, fun p hp => ?_⟩
  obtain rfl := List.mem_singleton.1 hp
  exact h

lemma nil (names : List String) : From names [] := ⟨List.nil_sublist _, fun _ hp => nomatch hp⟩

lemma append {n m : List String} {f g : Fields} (hf : From n f) (hg : From m g) :
    From (n ++ m) (f ++ g) := by
  refine ⟨?_, fun p hp => ?_⟩
  · rw [List.map_append]
    exact hf.keys.append hg.keys
  · rcases List.mem_append.1 hp with hp | hp
    · exact hf.values p hp
    · exact hg.values p hp

lemma object {names : List String} {f : Fields} (h : From names f) (distinct : names.Nodup) :
    (Value.object f).Distinct :=
  .object (h.keys.nodup distinct) h.values

lemma text (k : String) (s : Option String) : From [k] (textField k s) := by
  cases s with
  | none => exact nil _
  | some s => exact one k (.string s)

lemma texts (k : String) (l : List String) : From [k] (textsField k l) := by
  unfold textsField
  split_ifs
  · exact nil _
  · refine one k (.array fun v hv => ?_)
    obtain ⟨s, -, rfl⟩ := List.mem_map.1 hv
    exact .string s

end From

end Json.Fields

open Json.Fields

/-- The JSON form of a list. -/
lemma distinct_list {α : Type} {enc : α → Value} {l : List α} (h : ∀ a ∈ l, (enc a).Distinct) :
    (Value.array (l.map enc)).Distinct := by
  refine .array fun v hv => ?_
  obtain ⟨a, ha, rfl⟩ := List.mem_map.1 hv
  exact h a ha

/-- The JSON form of a map. -/
lemma distinct_map {α : Type} {enc : α → Value} {m : SortedMap α}
    (h : ∀ a ∈ m.values, (enc a).Distinct) :
    (Value.object (m.entries.map fun p => (p.1, enc p.2))).Distinct := by
  refine .object ?_ fun p hp => ?_
  · rw [List.map_map]
    exact m.nodup_keys
  · obtain ⟨q, hq, rfl⟩ := List.mem_map.1 hp
    exact h q.2 (List.mem_map.2 ⟨q, hq, rfl⟩)

lemma TypeRef.distinct_toJson (t : TypeRef) : t.toJson.Distinct := by
  induction t with
  | named n =>
    exact ((From.one "kind" (.string _)).append (.one "name" (.string n))).object (by decide)
  | primitive n =>
    exact ((From.one "kind" (.string _)).append (.one "name" (.string n))).object (by decide)
  | array t ih => exact ((From.one "kind" (.string _)).append (.one "items" ih)).object (by decide)

lemma Property.distinct_toJson (p : Property) : p.toJson.Distinct :=
  (((From.one "type" p.type.distinct_toJson).append (.text "description" _)).append
    (.one "required" (.bool _))).object (by decide)

lemma Schema.distinct_toJson (s : Schema) : s.toJson.Distinct :=
  ((((From.one "name" (.string _)).append (.text "description" _)).append
    (.one "properties" (distinct_map fun p _ => p.distinct_toJson))).append
      (.texts "enum_values" _)).object (by decide)

lemma Parameter.distinct_toJson (p : Parameter) : p.toJson.Distinct :=
  (((((From.one "name" (.string _)).append (.one "location" (.string _))).append
    (.one "required" (.bool _))).append (.text "description" _)).append
      (.one "schema" p.schema.distinct_toJson)).object (by decide)

lemma RequestBody.distinct_toJson (b : RequestBody) : b.toJson.Distinct :=
  (((From.one "content_type" (.string _)).append (.text "description" _)).append
    ((From.one "required" (.bool _)).append (.one "schema" b.schema.distinct_toJson))).object
      (by decide)

/-- A field that is written only if there is a value. -/
lemma Json.Fields.From.option {α : Type} (k : String) {enc : α → Value} {x : Option α}
    {f : Fields} (hf : f = (x.map fun a => (k, enc a)).toList) (h : ∀ a ∈ x, (enc a).Distinct) :
    From [k] f := by
  subst hf
  cases x with
  | none => exact .nil _
  | some a => exact .one k (h a rfl)

lemma Response.distinct_toJson {r : Response} (h : r.Distinct) : r.toJson.Distinct := by
  obtain ⟨status, description, schema, example?⟩ := r
  exact ((((From.one "status" (.string _)).append (.text "description" _)).append
    (.option (x := schema) "schema" (by cases schema <;> rfl)
      fun t _ => t.distinct_toJson)).append
        (.option (x := example?) "example" (by cases example? <;> rfl) h)).object (by decide)

lemma Endpoint.distinct_toJson {e : Endpoint} (h : ∀ r ∈ e.responses, r.Distinct) :
    e.toJson.Distinct := by
  obtain ⟨method, path, summary, description, operationId, parameters, body, responses, tags,
    deprecated, enhanced⟩ := e
  have key : From ["method", "path"]
      [("method", method.toJson), ("path", .string path)] :=
    (From.one "method" (.string _)).append (.one "path" (.string _))
  exact (((((((((key.append (.text "summary" _)).append (.text "description" _)).append
    (.text "operationId" _)).append
      (.one "parameters" (distinct_list fun p _ => p.distinct_toJson))).append
      (.option (x := body) "requestBody" (by cases body <;> rfl)
        fun b _ => b.distinct_toJson)).append
      (.one "responses" (distinct_list fun r hr => Response.distinct_toJson (h r hr)))).append
      (.texts "tags" _)).append (.one "deprecated" (.bool _))).append
        (.text "enhancedDescription" _)).object (by decide)

lemma Metadata.distinct_toJson {m : Metadata} (h : m.Distinct) : m.toJson.Distinct := by
  have values : (Value.object m.extra.entries).Distinct :=
    .object m.extra.nodup_keys fun p hp => h p.2 (List.mem_map.2 ⟨p, hp, rfl⟩)
  have extra : From ["extra"]
      (if m.extra.isEmpty then [] else [("extra", .object m.extra.entries)]) := by
    split_ifs
    · exact .nil _
    · exact .one "extra" values
  exact (((((From.one "sourceType" (.string _)).append (.text "projectName" _)).append
    (.text "projectVersion" _)).append (.text "parsedAt" _)).append extra).object (by decide)

/-- No object in the JSON form of a description has two fields of one name. -/
theorem Ast.distinct_toJson {a : Ast} (examples : a.Distinct) (extra : a.metadata.Distinct) :
    a.toJson.Distinct := by
  have endpoints : From ["endpoints"] [("endpoints", .array (a.endpoints.map Endpoint.toJson))] :=
    .one "endpoints" (distinct_list fun e he => Endpoint.distinct_toJson (examples e he))
  have schemas : From ["schemas"]
      [("schemas", .object (a.schemas.entries.map fun p => (p.1, p.2.toJson)))] :=
    .one "schemas" (distinct_map fun s _ => s.distinct_toJson)
  exact ((endpoints.append schemas).append ((From.one "metadata"
    (Metadata.distinct_toJson extra)).append (.one "unresolved" (.bool _)))).object (by decide)

end ApiCanon
