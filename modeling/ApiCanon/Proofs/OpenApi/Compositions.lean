import ApiCanon.OpenApi.Schemas
import ApiCanon.Proofs.Collection.KeyedList
import ApiCanon.Proofs.Collection.SortedMap
import ApiCanon.Proofs.Diff.Reach
import ApiCanon.Proofs.Json.Documents

/-!
# Compositions

A schema object defines properties, and so do the parts that it is composed of, which may be
composed in turn.  The definitions of a composition come in one order (`composed`): its own first,
then those of its parts, one part after another.  The schema that is built has a property for each
name that is defined in the composition, and the last definition of the name is the one that counts
(`get?_buildSchema_eq_some_iff`).
-/

namespace ApiCanon.OpenApi

open Json (Value Fields)
open Relation (ReflTransGen)

/-! ## Parts -/

/-- The properties that a schema object defines itself. -/
def ownDefinitions (v : Value) : Fields := ((v.get? "properties").bind Value.asObject?).getD []

/-- The parts that a schema object is composed of. -/
def partsOf (v : Value) : List Value := ((v.get? "allOf").bind Value.asArray?).getD []

/-- A schema object is composed of a part, immediately. -/
def HasPart (v w : Value) : Prop := w ∈ partsOf v

/-- The value of a field is smaller than the object. -/
lemma sizeOf_lt_of_get? {k : String} {v w : Value} (h : v.get? k = some w) :
    sizeOf w < sizeOf v := by
  cases v with
  | object f =>
    have field := List.sizeOf_lt_of_mem (Fields.mem_of_get? h)
    simp only [Prod.mk.sizeOf_spec] at field
    simp only [Value.object.sizeOf_spec]
    omega
  | null | bool | number | string | array => cases h

/-- An item is smaller than the list. -/
lemma sizeOf_lt_of_mem {v w : Value} {items : List Value} (list : v.asArray? = some items)
    (h : w ∈ items) : sizeOf w < sizeOf v := by
  cases v with
  | array a =>
    obtain rfl := Option.some.inj list
    have item := List.sizeOf_lt_of_mem h
    simp only [Value.array.sizeOf_spec]
    omega
  | null | bool | number | string | object => cases list

lemma sizeOf_lt_of_mem_partsOf {v w : Value} (h : w ∈ partsOf v) : sizeOf w < sizeOf v := by
  cases parts : (v.get? "allOf").bind Value.asArray? with
  | none =>
    rw [partsOf, parts] at h
    cases h
  | some items =>
    rw [partsOf, parts] at h
    obtain ⟨list, field, listed⟩ := Option.bind_eq_some_iff.1 parts
    exact (sizeOf_lt_of_mem listed h).trans (sizeOf_lt_of_get? field)

/-- The properties that a schema object and its parts define, in the order in which they are
read. -/
def composed (v : Value) : Fields :=
  ownDefinitions v ++ (partsOf v).attach.flatMap fun w => composed w.1
termination_by sizeOf v
decreasing_by exact sizeOf_lt_of_mem_partsOf w.2

lemma composed_eq (v : Value) : composed v = ownDefinitions v ++ (partsOf v).flatMap composed := by
  have forget := List.flatMap_subtype (l := (partsOf v).attach) (f := fun w => composed w.1)
    (g := composed) fun _ _ => rfl
  rw [composed, forget, List.unattach_attach]

/-- A property is defined in a composition if one of the parts defines it, at whatever depth. -/
lemma mem_composed_iff (v : Value) (p : String × Value) : p ∈ composed v ↔
    ∃ w, ReflTransGen HasPart v w ∧ p ∈ ownDefinitions w := by
  constructor
  · intro mem
    induction v using composed.induct with
    | case1 v ih =>
      rw [composed_eq, List.mem_append, List.mem_flatMap] at mem
      rcases mem with own | ⟨part, here, mem⟩
      · exact ⟨v, .refl, own⟩
      · obtain ⟨w, chain, own⟩ := ih ⟨part, here⟩ mem
        exact ⟨w, .head here chain, own⟩
  · rintro ⟨w, chain, own⟩
    induction chain using ReflTransGen.head_induction_on with
    | refl =>
      rw [composed_eq]
      exact List.mem_append_left _ own
    | head here _ ih =>
      rw [composed_eq]
      exact List.mem_append_right _ (List.mem_flatMap.2 ⟨_, here, ih⟩)

/-! ## Gathering -/

lemma ownProperties_eq (into : Fields) (f : Fields) : ownProperties into f =
    (ownDefinitions (.object f)).foldl (fun m (k, v) => m.put k v) into := by
  rw [ownProperties, ownDefinitions, Value.get?]
  cases Fields.get? "properties" f with
  | none => rfl
  | some v => cases v <;> rfl

lemma collectFromItems_eq (into : Fields) (items : List Value) :
    collectFromItems into items = items.foldl collectProperties into := by
  induction items generalizing into with
  | nil => rw [collectFromItems, List.foldl_nil]
  | cons v items ih => rw [collectFromItems, ih, List.foldl_cons]

lemma collectFromParts_eq (into : Fields) (f : Fields) :
    collectFromParts into f = (partsOf (.object f)).foldl collectProperties into := by
  induction f with
  | nil =>
    rw [collectFromParts]
    rfl
  | cons p f ih =>
    obtain ⟨k, v⟩ := p
    rw [collectFromParts, partsOf, Value.get?, Fields.get?]
    split_ifs with here
    · cases v with
      | array items =>
        rw [collectFromList, collectFromItems_eq]
        rfl
      | null | bool | number | string | object =>
        simp only [collectFromList]
        rfl
    · exact ih

lemma collectProperties_step (into : Fields) (v : Value) : collectProperties into v =
    (partsOf v).foldl collectProperties
      ((ownDefinitions v).foldl (fun m (k, s) => m.put k s) into) := by
  cases v with
  | object f => rw [collectProperties, collectFromParts_eq, ownProperties_eq]
  | null | bool | number | string | array =>
    simp only [collectProperties]
    rfl

/-- The properties are put in the order of the composition. -/
theorem collectProperties_eq (into : Fields) (v : Value) :
    collectProperties into v = (composed v).foldl (fun m (k, s) => m.put k s) into := by
  induction v using composed.induct generalizing into with
  | case1 v ih =>
    rw [collectProperties_step, composed_eq, List.foldl_append, List.foldl_flatMap]
    exact List.foldl_ext _ _ _ fun m w here => ih ⟨w, here⟩ m

/-- Of the values put under a name the last one stays. -/
lemma get?_foldl_put_eq_some_iff (l : Fields) (k : String) (s : Value) :
    Fields.get? k (l.foldl (fun m (k, s) => m.put k s) []) = some s ↔
      (k, s) ∈ lastsBy Prod.fst l := by
  induction l using List.reverseRecOn with
  | nil => exact iff_of_false nofun List.not_mem_nil
  | append_singleton l p ih =>
    obtain ⟨k', s'⟩ := p
    rw [List.foldl_append, List.foldl_cons, List.foldl_nil, lastsBy_concat, List.mem_append,
      List.mem_filter, List.mem_singleton, decide_eq_true_eq, ← ih]
    dsimp only
    by_cases same : k' = k
    · subst same
      simp [eq_comm]
    · simp [Fields.get?_put_of_ne same, Ne.symm same]

lemma nodup_foldl_put (l into : Fields) (distinct : (into.map (·.1)).Nodup) :
    ((l.foldl (fun m (k, s) => m.put k s) into).map (·.1)).Nodup := by
  induction l generalizing into with
  | nil => exact distinct
  | cons p l ih => exact ih _ (Fields.nodup_put distinct)

/-! ## Schemas -/

/-- **The properties of a schema** are those of its composition, each as it is defined last. -/
theorem get?_buildSchema_eq_some_iff (name : String) (raw : Value) (k : String) (p : Property) :
    (buildSchema name raw).properties.get? k = some p ↔
      ∃ s, (k, s) ∈ lastsBy Prod.fst (composed raw) ∧ p = ⟨typeOf s,
        nonEmpty (s.stringField? "description"), (requiredNames raw).contains k⟩ := by
  have keys := nodup_foldl_put (composed raw) [] List.nodup_nil
  have found := get?_foldl_put_eq_some_iff (composed raw) k
  rw [← collectProperties_eq] at keys
  simp only [← collectProperties_eq] at found
  have reversed : ((collectProperties [] raw).reverse.map (·.1)).Nodup := by
    rwa [List.map_reverse, List.nodup_reverse]
  rw [buildSchema, SortedMap.get?_ofList_map, Option.map_eq_some_iff]
  constructor
  · rintro ⟨⟨l, s⟩, search, rfl⟩
    obtain rfl : l = k := by simpa using List.find?_some search
    have mem := List.mem_reverse.1 (List.mem_of_find?_eq_some search)
    exact ⟨s, (found s).1 (Fields.get?_of_mem keys mem), rfl⟩
  · rintro ⟨s, last, rfl⟩
    have mem := List.mem_reverse.2 (Fields.mem_of_get? ((found s).2 last))
    exact ⟨(k, s), find?_key_eq_some reversed mem, rfl⟩

/-- A schema refers to what the properties of its composition refer to. -/
lemma refers_buildSchema_iff (name : String) (raw : Value) (n : String) :
    (buildSchema name raw).Refers n ↔
      ∃ k s, (k, s) ∈ lastsBy Prod.fst (composed raw) ∧ (typeOf s).Refers n := by
  constructor
  · rintro ⟨k, p, found, refers⟩
    obtain ⟨s, last, rfl⟩ := (get?_buildSchema_eq_some_iff name raw k p).1 found
    exact ⟨k, s, last, refers⟩
  · rintro ⟨k, s, last, refers⟩
    exact ⟨k, _, (get?_buildSchema_eq_some_iff name raw k _).2 ⟨s, last, rfl⟩, refers⟩

end ApiCanon.OpenApi
