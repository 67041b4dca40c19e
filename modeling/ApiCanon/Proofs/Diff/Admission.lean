import ApiCanon.Proofs.Diff.Schemas
import Mathlib.Data.Fintype.EquivFin
import Mathlib.Data.Set.Basic

/-!
# What schemas admit

The policy of a comparison is that a difference breaks when a client written for the old
description can fail with the new one.  Here the verdict on schemas is measured against what the
schemas admit: records, by the names of the properties they have, and texts.

For records the verdict is exact: nothing breaks if and only if every record that was admissible
still is and has the same types, and no listed text is gone (`harmless_iff_keeps`).

For texts it is not.  A schema that lists no text admits every text, but in a comparison the list
is empty, and what comes into an empty list only adds to it.  So a harmless comparison keeps all
texts exactly if it is not one from a schema without a list to one with a list, and
`harmless_comparison_loses_text` is a comparison of that kind.
-/

namespace ApiCanon

namespace Schema

/-- The type of a property that a schema declares. -/
def typeOf? (s : Schema) (k : String) : Option TypeRef := (s.properties.get? k).map Property.type

/-- A record is admissible if it has all properties that are required, and only properties that
are declared. -/
structure AdmitsRecord (s : Schema) (present : Set String) : Prop where
  declared : ∀ k ∈ present, (s.typeOf? k).isSome = true
  complete : ∀ k p, s.properties.get? k = some p → p.required = true → k ∈ present

/-- A text is admissible if it is listed, or if no text is. -/
def AdmitsText (s : Schema) (v : String) : Prop := s.enumValues = [] ∨ v ∈ s.enumValues

/-- Every record that is admissible for the old schema is for the new one, with the same types. -/
def KeepsRecords (old new : Schema) : Prop :=
  ∀ present, old.AdmitsRecord present →
    new.AdmitsRecord present ∧ ∀ k ∈ present, new.typeOf? k = old.typeOf? k

/-- Every text that is admissible for the old schema is for the new one. -/
def KeepsTexts (old new : Schema) : Prop := ∀ v, old.AdmitsText v → new.AdmitsText v

lemma isSome_typeOf?_iff (s : Schema) (k : String) :
    (s.typeOf? k).isSome = true ↔ ∃ p, s.properties.get? k = some p := by
  rw [typeOf?, Option.isSome_map, Option.isSome_iff_exists]

lemma typeOf?_of_get? {s : Schema} {k : String} {p : Property}
    (h : s.properties.get? k = some p) : s.typeOf? k = some p.type := by
  rw [typeOf?, h, Option.map_some]

/-! ## The records at the ends of the range -/

/-- The record with all properties is admissible. -/
lemma admitsRecord_declared (s : Schema) : s.AdmitsRecord {k | (s.typeOf? k).isSome = true} where
  declared := fun _ hk => hk
  complete := fun k p hp _ => (s.isSome_typeOf?_iff k).2 ⟨p, hp⟩

/-- The record with the required properties only is admissible. -/
lemma admitsRecord_required (s : Schema) :
    s.AdmitsRecord {k | ∃ p, s.properties.get? k = some p ∧ p.required = true} where
  declared := by
    rintro k ⟨p, hp, -⟩
    exact (s.isSome_typeOf?_iff k).2 ⟨p, hp⟩
  complete := fun _ p hp required => ⟨p, hp, required⟩

end Schema

namespace Diff

open Schema

variable {old new : Schema}

/-! ## Records -/

lemma keepsRecords_of_not_breaks (h : ¬SchemaBreaks old new) : old.KeepsRecords new := by
  intro present admits
  have kept : ∀ k ∈ present, ∃ p q, old.properties.get? k = some p ∧
      new.properties.get? k = some q ∧ q.type = p.type := by
    intro k hk
    obtain ⟨p, was⟩ := (old.isSome_typeOf?_iff k).1 (admits.declared k hk)
    obtain ⟨q, is, type, -⟩ := get?_of_not_breaks h was
    exact ⟨p, q, was, is, type⟩
  refine ⟨⟨fun k hk => ?_, fun k q is required => ?_⟩, fun k hk => ?_⟩
  · obtain ⟨p, q, -, is, -⟩ := kept k hk
    exact (new.isSome_typeOf?_iff k).2 ⟨q, is⟩
  · obtain ⟨p, was, required⟩ := required_of_not_breaks h is required
    exact admits.complete k p was required
  · obtain ⟨p, q, was, is, type⟩ := kept k hk
    rw [typeOf?_of_get? is, typeOf?_of_get? was, type]

/-- The fullest and the barest record tell whether all records are kept. -/
lemma not_breaks_of_keeps (records : old.KeepsRecords new)
    (texts : ∀ v ∈ old.enumValues, v ∈ new.enumValues) : ¬SchemaBreaks old new := by
  obtain ⟨full, types⟩ := records _ old.admitsRecord_declared
  obtain ⟨bare, -⟩ := records _ old.admitsRecord_required
  rintro (⟨k, p, was, lost⟩ | ⟨k, p, q, was, is, type⟩ | ⟨k, p, q, was, is, optional, required⟩ |
    ⟨k, q, fresh, is, required⟩ | ⟨v, was, lost⟩)
  · obtain ⟨q, is⟩ := (new.isSome_typeOf?_iff k).1
      (full.declared k ((old.isSome_typeOf?_iff k).2 ⟨p, was⟩))
    rw [lost] at is
    cases is
  · have same := types k ((old.isSome_typeOf?_iff k).2 ⟨p, was⟩)
    rw [typeOf?_of_get? is, typeOf?_of_get? was] at same
    exact type (Option.some.inj same).symm
  · obtain ⟨p', was', required'⟩ := bare.complete k q is required
    obtain rfl : p = p' := Option.some.inj (was.symm.trans was')
    exact Bool.false_ne_true (optional.symm.trans required')
  · obtain ⟨p, was, -⟩ := bare.complete k q is required
    rw [fresh] at was
    cases was
  · exact lost (texts v was)

/-! ## Texts -/

/-- No list has all texts. -/
lemma exists_text_not_mem (l : List String) : ∃ v, v ∉ l := by
  obtain ⟨v, hv⟩ := Infinite.exists_notMem_finset l.toFinset
  exact ⟨v, fun h => hv (List.mem_toFinset.2 h)⟩

/-- Where no listed text is gone, texts are lost only by a list that takes the place of none. -/
lemma keepsTexts_iff (kept : ∀ v ∈ old.enumValues, v ∈ new.enumValues) :
    old.KeepsTexts new ↔ (old.enumValues = [] → new.enumValues = []) := by
  constructor
  · intro keeps none
    obtain ⟨v, unlisted⟩ := exists_text_not_mem new.enumValues
    exact (keeps v (Or.inl none)).resolve_right unlisted
  · rintro unlimited v (none | listed)
    · exact Or.inl (unlimited none)
    · exact Or.inr (kept v listed)

/-! ## The verdict -/

/-- **What a harmless comparison keeps.**  Whatever the options, a comparison of schemas has no
breaking difference if and only if it keeps the admissible records with their types and the listed
texts.  It then keeps the admissible texts if and only if it does not put a list of texts into a
schema that had none. -/
theorem harmless_iff_keeps (o : DiffOptions) (old new : Schema) :
    (¬HasBreaking (compareSchemas o old new) ↔
      old.KeepsRecords new ∧ ∀ v ∈ old.enumValues, v ∈ new.enumValues) ∧
    (¬HasBreaking (compareSchemas o old new) →
      (old.KeepsTexts new ↔ (old.isEnum = false → new.isEnum = false))) := by
  have listed : ¬SchemaBreaks old new → ∀ v ∈ old.enumValues, v ∈ new.enumValues := by
    intro h v was
    by_contra lost
    exact h (.textGone v was lost)
  rw [hasBreaking_compareSchemas_iff]
  refine ⟨⟨fun h => ⟨keepsRecords_of_not_breaks h, listed h⟩,
    fun ⟨records, texts⟩ => not_breaks_of_keeps records texts⟩, fun h => ?_⟩
  simpa [isEnum] using keepsTexts_iff (listed h)

/-- A schema of some texts. -/
def choice (texts : List String) : Schema := { Schema.named "Status" with enumValues := texts }

/-- A list that grows keeps its texts. -/
theorem harmless_iff_keeps_choice :
    ¬HasBreaking (compareSchemas .default (choice ["active"]) (choice ["active", "pending"])) ∧
      (choice ["active"]).KeepsTexts (choice ["active", "pending"]) := by
  have harmless :
      ¬HasBreaking (compareSchemas .default (choice ["active"]) (choice ["active", "pending"])) :=
    (not_hasBreaking_iff _).2 (by decide)
  exact ⟨harmless, ((harmless_iff_keeps .default _ _).2 harmless).2 (by decide)⟩

/-- A list in the place of none is called harmless, although it takes texts away. -/
theorem harmless_comparison_loses_text :
    ¬HasBreaking (compareSchemas .default (choice []) (choice ["active"])) ∧
      (choice []).AdmitsText "banned" ∧ ¬(choice ["active"]).AdmitsText "banned" := by
  refine ⟨(not_hasBreaking_iff _).2 (by decide), Or.inl rfl, ?_⟩
  rintro (none | listed)
  · cases none
  · exact absurd listed (by decide)

end Diff

end ApiCanon
