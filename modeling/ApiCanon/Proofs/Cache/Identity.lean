import ApiCanon.Proofs.Cache.Key
import ApiCanon.Proofs.Json.Order
import ApiCanon.Proofs.Model.Documents

/-!
# What has one key

Two readings have one key exactly if they agree in the source type, in the contents and, up to the
order of fields, in the configuration; two descriptions have one key exactly if they agree, in the
same sense, in the JSON form of the endpoint and in the context; and a reading whose source type is
not called `enhance` has no key of a description (`keys_identify`).
-/

namespace ApiCanon

open Json (Value Fields)
open Json.Value (Document Reordered)

/-! ## The JSON form of an endpoint -/

lemma TypeRef.doubles_toJson (t : TypeRef) : t.toJson.Doubles := by
  induction t with
  | named n => simp [toJson]
  | primitive n => simp [toJson]
  | array t ih => simpa [toJson] using ih

lemma doubles_textField (k : String) (s : Option String) :
    ∀ p ∈ textField k s, p.2.Doubles := by
  cases s <;> simp [textField]

lemma doubles_textsField (k : String) (l : List String) :
    ∀ p ∈ textsField k l, p.2.Doubles := by
  unfold textsField
  split_ifs <;> simp

lemma Parameter.doubles_toJson (p : Parameter) : p.toJson.Doubles := by
  simp only [toJson, Json.Value.doubles_object, List.forall_mem_append]
  exact ⟨⟨by simp [Location.toJson], doubles_textField _ _⟩, by simp [TypeRef.doubles_toJson]⟩

lemma RequestBody.doubles_toJson (b : RequestBody) : b.toJson.Doubles := by
  simp only [toJson, Json.Value.doubles_object, List.forall_mem_append]
  exact ⟨⟨by simp, doubles_textField _ _⟩, by simp [TypeRef.doubles_toJson]⟩

lemma Response.doubles_toJson {r : Response} (h : ∀ v ∈ r.example?, v.Doubles) :
    r.toJson.Doubles := by
  obtain ⟨status, description, schema, example?⟩ := r
  simp only [toJson, Json.Value.doubles_object, List.forall_mem_append]
  refine ⟨⟨⟨by simp, doubles_textField _ _⟩, ?_⟩, ?_⟩
  · cases schema <;> simp [TypeRef.doubles_toJson]
  · cases example? with
    | none => simp
    | some v => simpa using h v rfl

lemma Endpoint.doubles_toJson {e : Endpoint}
    (h : ∀ r ∈ e.responses, ∀ v ∈ r.example?, v.Doubles) : e.toJson.Doubles := by
  obtain ⟨method, path, summary, description, operationId, parameters, body, responses, tags,
    deprecated, enhanced⟩ := e
  simp only [toJson, Json.Value.doubles_object, List.forall_mem_append]
  refine ⟨⟨⟨⟨⟨⟨⟨⟨⟨?_, doubles_textField _ _⟩, doubles_textField _ _⟩, doubles_textField _ _⟩,
    ?_⟩, ?_⟩, ?_⟩, doubles_textsField _ _⟩, ?_⟩, doubles_textField _ _⟩
  · simp [Method.toJson]
  · simp [Parameter.doubles_toJson]
  · cases body <;> simp [RequestBody.doubles_toJson]
  · simpa using fun r hr => Response.doubles_toJson (h r hr)
  · simp

/-- Where the examples of an endpoint are documents, its JSON form is one. -/
lemma Endpoint.document_toJson {e : Endpoint}
    (h : ∀ r ∈ e.responses, ∀ v ∈ r.example?, v.Document) : e.toJson.Document :=
  ⟨Endpoint.distinct_toJson fun r hr v hv => (h r hr v hv).distinct,
    Endpoint.doubles_toJson fun r hr v hv => (h r hr v hv).doubles⟩

namespace CacheKey

/-! ## Keys -/

/-- The bytes that are digested for an endpoint. -/
def endpointBytes (e : Endpoint) : Bytes := Bytes.ofString e.toJson.canonicalText

variable {v w : Value}

lemma ofString_canonicalText_eq_iff (hv : v.Document) (hw : w.Document) :
    Bytes.ofString v.canonicalText = Bytes.ofString w.canonicalText ↔ Reordered v w := by
  rw [← Json.Value.canonicalText_eq_iff hv hw]
  exact ⟨fun h => Bytes.ofString_injective h, congrArg Bytes.ofString⟩

/-- Keys agree exactly if their names and what is digested do. -/
lemma compose_eq_iff {name name' : String} {a b a' b' : Bytes} (first : CollisionFree [a, a'])
    (second : CollisionFree [b, b']) :
    compose name (Sha256.hex a) (Sha256.hex b) = compose name' (Sha256.hex a') (Sha256.hex b') ↔
      name = name' ∧ a = a' ∧ b = b' := by
  constructor
  · intro h
    obtain ⟨names, digest, digest'⟩ := compose_injective h
    exact ⟨names, first a (by simp) a' (by simp) digest, second b (by simp) b' (by simp) digest'⟩
  · rintro ⟨rfl, rfl, rfl⟩
    rfl

/-- **Keys identify what they are made of.** -/
theorem keys_identify {tag tag' : String} {source source' : Bytes} {e e' : Endpoint}
    {c d : Option Value} (sources : CollisionFree [source, source'])
    (endpoints : CollisionFree [endpointBytes e, endpointBytes e'])
    (values : CollisionFree [valueBytes c, valueBytes d])
    (he : ∀ r ∈ e.responses, ∀ v ∈ r.example?, v.Document)
    (he' : ∀ r ∈ e'.responses, ∀ v ∈ r.example?, v.Document)
    (hc : (c.getD .null).Document) (hd : (d.getD .null).Document) :
    (derive tag source c = derive tag' source' d ↔
        tag = tag' ∧ source = source' ∧ Reordered (c.getD .null) (d.getD .null)) ∧
      (enhancement e c = enhancement e' d ↔
        Reordered e.toJson e'.toJson ∧ Reordered (c.getD .null) (d.getD .null)) ∧
      (tag ≠ "enhance" → derive tag source c ≠ enhancement e d) := by
  have value := ofString_canonicalText_eq_iff hc hd
  have endpoint := ofString_canonicalText_eq_iff (Endpoint.document_toJson he)
    (Endpoint.document_toJson he')
  refine ⟨?_, ?_, fun other same => ?_⟩
  · rw [← value]
    exact compose_eq_iff sources values
  · rw [← value, ← endpoint]
    refine (compose_eq_iff endpoints values).trans ?_
    exact and_iff_right rfl
  · exact other (compose_injective same).1

/-! ### Reordered limits -/

/-- A limit that is no whole number, in front of a field that is null, and behind it. -/
def limits : Value :=
  .object [("rate", .number (.float ⟨false, 3 * 2 ^ 51, -52⟩)), ("burst", .null)]

def limitsReordered : Value :=
  .object [("burst", .null), ("rate", .number (.float ⟨false, 3 * 2 ^ 51, -52⟩))]

/-- An endpoint with an example. -/
def exemplified (v : Value) : Endpoint :=
  { Endpoint.plain .get "/a" with responses := [⟨"200", none, none, some v⟩] }

lemma document_limits : limits.Document ∧ limitsReordered.Document := by
  have double : (Json.Number.float ⟨false, 3 * 2 ^ 51, -52⟩).Double := by decide
  have fields : ∀ {f : Fields}, f = [("rate", .number (.float ⟨false, 3 * 2 ^ 51, -52⟩)),
      ("burst", .null)] ∨ f = [("burst", .null),
        ("rate", .number (.float ⟨false, 3 * 2 ^ 51, -52⟩))] → (Value.object f).Document := by
    rintro f (rfl | rfl)
    all_goals
      refine ⟨.object (by decide) fun p hp => ?_, .object fun p hp => ?_⟩
      all_goals
        simp only [List.mem_cons, List.not_mem_nil, or_false] at hp
        rcases hp with rfl | rfl
        all_goals first | exact .null | exact .number _ | exact .number double
  exact ⟨fields (Or.inl rfl), fields (Or.inr rfl)⟩

/-- One endpoint and one context in two orders, and two sources of a type with a colon. -/
theorem keys_identify_limits :
    CollisionFree [[120], [121]] ∧
      CollisionFree [endpointBytes (exemplified limits),
        endpointBytes (exemplified limitsReordered)] ∧
      CollisionFree [valueBytes (some limits), valueBytes (some limitsReordered)] ∧
      limits.Document ∧ limitsReordered.Document ∧
      derive "a:b" [120] (some limits) ≠ derive "a:b" [121] (some limitsReordered) ∧
      enhancement (exemplified limits) (some limits) =
        enhancement (exemplified limitsReordered) (some limitsReordered) ∧
      derive "a:b" [120] (some limits) ≠
        enhancement (exemplified limits) (some limitsReordered) := by
  have equal : ∀ {a b : Bytes}, a = b → CollisionFree [a, b] := by
    rintro a b rfl c hc d hd _
    simp only [List.mem_cons, List.not_mem_nil, or_false, or_self] at hc hd
    rw [hc, hd]
  have sources : CollisionFree [[120], [121]] := by
    have apart : Sha256.hex [120] ≠ Sha256.hex [121] := by decide +kernel
    intro a ha b hb same
    simp only [List.mem_cons, List.not_mem_nil, or_false] at ha hb
    rcases ha with rfl | rfl <;> rcases hb with rfl | rfl
    · rfl
    · exact absurd same apart
    · exact absurd same.symm apart
    · rfl
  have endpoints : CollisionFree [endpointBytes (exemplified limits),
      endpointBytes (exemplified limitsReordered)] := equal (by decide +kernel)
  have values : CollisionFree [valueBytes (some limits), valueBytes (some limitsReordered)] :=
    equal (by decide +kernel)
  obtain ⟨document, document'⟩ := document_limits
  have examples : ∀ {v : Value}, v.Document →
      ∀ r ∈ (exemplified v).responses, ∀ w ∈ r.example?, w.Document := by
    intro v hv r hr w hw
    obtain rfl := List.mem_singleton.1 hr
    obtain rfl := Option.some.inj hw
    exact hv
  obtain ⟨reading, description, apart⟩ := @keys_identify "a:b" "a:b" _ _ _ _ _ _ sources endpoints
    values (examples document) (examples document') document document'
  refine ⟨sources, endpoints, values, document, document', ?_, ?_, apart (by decide)⟩
  · rw [Ne, reading]
    exact fun ⟨_, same, _⟩ => absurd same (by decide)
  · rw [description]
    exact ⟨Json.Value.reordered_of_canonicalize_eq (by decide +kernel),
      Json.Value.reordered_of_canonicalize_eq (by decide +kernel)⟩

end CacheKey

end ApiCanon
