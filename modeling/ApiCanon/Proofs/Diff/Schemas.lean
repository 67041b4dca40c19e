import ApiCanon.Diff.Schemas
import ApiCanon.Proofs.Collection.SortedMap
import ApiCanon.Proofs.Diff.Differences

/-!
# Verdicts on schemas

When a comparison of two schemas is silent and when it breaks.  Properties are looked up by name
on the other side, and texts are looked for in a list, so neither the order of the enumerated
texts nor their repetition counts (`Schema.Matches`).

Descriptions never break anything, so the verdict does not depend on the options
(`hasBreaking_compareSchemas_iff`), and a schema is narrowed exactly when its comparison breaks.
-/

namespace ApiCanon

/-- Agreement of two schemas in all that a comparison is about. -/
structure Schema.Matches (old new : Schema) : Prop where
  description : old.description = new.description
  properties : old.properties = new.properties
  enumValues : ∀ v, v ∈ old.enumValues ↔ v ∈ new.enumValues

namespace Diff

/-! ## Properties -/

lemma hasBreaking_compareProperty_iff (o : DiffOptions) (name : String) (p q : Property) :
    HasBreaking (compareProperty o name p q) ↔
      p.type ≠ q.type ∨ (p.required = false ∧ q.required = true) := by
  simp [compareProperty]

lemma compareProperty_eq_nil_iff {o : DiffOptions} (full : o.ignoreDescriptions = false)
    (name : String) (p q : Property) : compareProperty o name p q = [] ↔ p = q := by
  obtain ⟨type, description, required⟩ := p
  obtain ⟨type', description', required'⟩ := q
  simp only [compareProperty, List.append_eq_nil_iff, reportIf_eq_nil_iff, full]
  cases required <;> cases required' <;> simp

@[simp] lemma compareProperty_self (o : DiffOptions) (name : String) (p : Property) :
    compareProperty o name p p = [] := by
  simp [compareProperty]

lemma breaking_addedProperty (name : String) (p : Property) :
    (addedProperty name p).breaking = p.required := by
  cases h : p.required <;> simp [addedProperty, h]

/-! ## Schemas -/

/-- A change of a schema that can make a client fail: a property is lost, retyped, tightened or
newly demanded, or a text is lost. -/
inductive SchemaBreaks (old new : Schema) : Prop where
  | gone (k : String) (p : Property) (was : old.properties.get? k = some p)
      (lost : new.properties.get? k = none)
  | retyped (k : String) (p q : Property) (was : old.properties.get? k = some p)
      (is : new.properties.get? k = some q) (type : p.type ≠ q.type)
  | nowRequired (k : String) (p q : Property) (was : old.properties.get? k = some p)
      (is : new.properties.get? k = some q) (optional : p.required = false)
      (required : q.required = true)
  | demanded (k : String) (q : Property) (fresh : old.properties.get? k = none)
      (is : new.properties.get? k = some q) (required : q.required = true)
  | textGone (v : String) (was : v ∈ old.enumValues) (lost : v ∉ new.enumValues)

/-- A comparison of schemas breaks exactly in the listed cases, whatever the options. -/
theorem hasBreaking_compareSchemas_iff (o : DiffOptions) (old new : Schema) :
    HasBreaking (compareSchemas o old new) ↔ SchemaBreaks old new := by
  simp only [compareSchemas, hasBreaking_append, hasBreaking_reportIf, breaking_harmlessIn,
    hasBreaking_flatMap, hasBreaking_map, breaking_breakingIn, breaking_addedProperty,
    List.mem_filter, Prod.exists, ← SortedMap.get?_eq_some_iff]
  constructor
  · rintro ((((h | ⟨k, p, was, breaking⟩) | ⟨k, q, ⟨is, fresh⟩, required⟩) |
      ⟨v, ⟨was, lost⟩, -⟩) | h)
    · exact absurd h.2 Bool.false_ne_true
    · cases is : new.properties.get? k with
      | none => exact .gone k p was is
      | some q =>
        simp only [compareOldProperty, is] at breaking
        rcases (hasBreaking_compareProperty_iff o k p q).1 breaking with type | ⟨optional, required⟩
        · exact .retyped k p q was is type
        · exact .nowRequired k p q was is optional required
    · refine .demanded k q ?_ is required
      simpa [SortedMap.contains] using fresh
    · exact .textGone v was (by simpa using lost)
    · obtain ⟨_, _, h⟩ := h
      exact absurd h Bool.false_ne_true
  · have shared : ∀ k p q, old.properties.get? k = some p → new.properties.get? k = some q →
        (p.type ≠ q.type ∨ (p.required = false ∧ q.required = true)) →
        ∃ k p, old.properties.get? k = some p ∧
          HasBreaking (compareOldProperty o new.properties k p) := by
      intro k p q was is h
      refine ⟨k, p, was, ?_⟩
      simp only [compareOldProperty, is]
      exact (hasBreaking_compareProperty_iff o k p q).2 h
    rintro (⟨k, p, was, lost⟩ | ⟨k, p, q, was, is, type⟩ | ⟨k, p, q, was, is, optional, required⟩ |
      ⟨k, q, fresh, is, required⟩ | ⟨v, was, lost⟩)
    · exact Or.inl (Or.inl (Or.inl (Or.inr ⟨k, p, was, by simp [compareOldProperty, lost]⟩)))
    · exact Or.inl (Or.inl (Or.inl (Or.inr (shared k p q was is (Or.inl type)))))
    · exact Or.inl (Or.inl (Or.inl (Or.inr
        (shared k p q was is (Or.inr ⟨optional, required⟩)))))
    · exact Or.inl (Or.inl (Or.inr ⟨k, q, ⟨is, by simp [SortedMap.contains, fresh]⟩, required⟩))
    · exact Or.inl (Or.inr ⟨v, ⟨was, by simpa using lost⟩, trivial⟩)

/-- Where nothing breaks, an old property is still there, with its type and no stricter. -/
lemma get?_of_not_breaks {old new : Schema} (h : ¬SchemaBreaks old new) {k : String} {p : Property}
    (was : old.properties.get? k = some p) :
    ∃ q, new.properties.get? k = some q ∧ q.type = p.type ∧
      (q.required = true → p.required = true) := by
  cases is : new.properties.get? k with
  | none => exact absurd (.gone k p was is) h
  | some q =>
    refine ⟨q, rfl, ?_, fun required => ?_⟩
    · by_contra type
      exact h (.retyped k p q was is (Ne.symm type))
    · by_contra optional
      exact h (.nowRequired k p q was is (Bool.not_eq_true _ ▸ optional) required)

/-- Where nothing breaks, a property that is required has been required before. -/
lemma required_of_not_breaks {old new : Schema} (h : ¬SchemaBreaks old new) {k : String}
    {q : Property} (is : new.properties.get? k = some q) (required : q.required = true) :
    ∃ p, old.properties.get? k = some p ∧ p.required = true := by
  cases was : old.properties.get? k with
  | none => exact absurd (.demanded k q was is required) h
  | some p =>
    obtain ⟨q', is', -, kept⟩ := get?_of_not_breaks h was
    obtain rfl : q = q' := Option.some.inj (is.symm.trans is')
    exact ⟨p, rfl, kept required⟩

lemma properties_eq_iff {o : DiffOptions} (full : o.ignoreDescriptions = false)
    (old new : SortedMap Property) :
    (∀ p ∈ old.entries, compareOldProperty o new p.1 p.2 = []) ∧
      (∀ p ∈ new.entries, old.contains p.1 = true) ↔ old = new := by
  constructor
  · rintro ⟨agree, known⟩
    have forward : ∀ k p, old.get? k = some p → new.get? k = some p := by
      intro k p hp
      have silent := agree _ ((SortedMap.get?_eq_some_iff old k p).1 hp)
      cases hq : new.get? k with
      | none => simp [compareOldProperty, hq] at silent
      | some q =>
        simp only [compareOldProperty, hq] at silent
        rw [(compareProperty_eq_nil_iff full k p q).1 silent]
    refine SortedMap.ext_get?_iff.2 fun k p => ⟨forward k p, fun hp => ?_⟩
    have hk := known _ ((SortedMap.get?_eq_some_iff new k p).1 hp)
    obtain ⟨p', hp'⟩ := Option.isSome_iff_exists.1 hk
    obtain rfl : p' = p := Option.some.inj ((forward k p' hp').symm.trans hp)
    exact hp'
  · rintro rfl
    refine ⟨fun p hp => ?_, fun p hp => ?_⟩
    · simp [compareOldProperty, (SortedMap.get?_eq_some_iff old p.1 p.2).2 hp]
    · simp [SortedMap.contains, (SortedMap.get?_eq_some_iff old p.1 p.2).2 hp]

/-- With everything compared, only schemas that match are silent. -/
theorem compareSchemas_eq_nil_iff {o : DiffOptions} (full : o.ignoreDescriptions = false)
    (old new : Schema) : compareSchemas o old new = [] ↔ old.Matches new := by
  have properties := properties_eq_iff full old.properties new.properties
  simp only [compareSchemas, List.append_eq_nil_iff, reportIf_eq_nil_iff, full, Bool.not_false,
    Bool.true_and, bne_eq_false_iff_eq, List.flatMap_eq_nil_iff, List.map_eq_nil_iff,
    List.filter_eq_nil_iff, Bool.not_eq_true', Bool.not_eq_false, List.contains_iff_mem]
  constructor
  · rintro ⟨⟨⟨⟨description, agree⟩, known⟩, sub⟩, sup⟩
    exact ⟨description, properties.1 ⟨agree, known⟩, fun v => ⟨sub v, sup v⟩⟩
  · rintro ⟨description, hproperties, texts⟩
    obtain ⟨agree, known⟩ := properties.2 hproperties
    exact ⟨⟨⟨⟨description, agree⟩, known⟩, fun v => (texts v).1⟩, fun v => (texts v).2⟩

@[simp] lemma compareSchemas_self (o : DiffOptions) (s : Schema) : compareSchemas o s s = [] := by
  have stored : ∀ p ∈ s.properties.entries, s.properties.get? p.1 = some p.2 := fun p hp =>
    (SortedMap.get?_eq_some_iff s.properties p.1 p.2).2 hp
  simp only [compareSchemas, List.append_eq_nil_iff, reportIf_eq_nil_iff, bne_self_eq_false,
    Bool.and_false, List.flatMap_eq_nil_iff, List.map_eq_nil_iff, List.filter_eq_nil_iff,
    true_and]
  refine ⟨⟨⟨fun p hp => ?_, fun p hp => ?_⟩, fun v hv => ?_⟩, fun v hv => ?_⟩
  · simp [compareOldProperty, stored p hp]
  · simp [SortedMap.contains, stored p hp]
  · simp [hv]
  · simp [hv]

/-! ## Narrowing -/

lemma isNarrowed_iff (old new : Schema) : isNarrowed old new = true ↔ SchemaBreaks old new := by
  rw [← hasBreaking_compareSchemas_iff ⟨true, true⟩ old new]
  simp [isNarrowed, HasBreaking]

/-- A narrowed schema is on both sides, and its comparison breaks. -/
theorem mem_narrowedSchemas_iff (old new : SortedMap Schema) (name : String) :
    name ∈ narrowedSchemas old new ↔
      ∃ s t, old.get? name = some s ∧ new.get? name = some t ∧ SchemaBreaks s t := by
  simp only [narrowedSchemas, List.mem_filterMap, Prod.exists, ← SortedMap.get?_eq_some_iff]
  constructor
  · rintro ⟨k, s, hs, h⟩
    cases ht : new.get? k with
    | none => simp [ht] at h
    | some t =>
      simp only [ht] at h
      split at h
      · next narrowed =>
        obtain rfl := Option.some.inj h
        exact ⟨s, t, hs, ht, (isNarrowed_iff s t).1 narrowed⟩
      · exact absurd h (by simp)
  · rintro ⟨s, t, hs, ht, breaks⟩
    exact ⟨name, s, hs, by simp [ht, (isNarrowed_iff s t).2 breaks]⟩

end Diff

end ApiCanon
