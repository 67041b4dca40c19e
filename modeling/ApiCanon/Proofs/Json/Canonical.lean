import ApiCanon.Proofs.Json.RoundTrip
import Mathlib.Data.List.Perm.Basic

/-!
# Canonical form

Sorting the fields by their names moves fields and changes nothing else: the canonical form of a
document is readable if the document is, and a look-up in it finds the canonical form of what a
look-up in the document finds (`get?_canonicalFields`).  As reading undoes writing, documents with
one canonical text have one canonical form (`canonicalize_eq_of_canonicalText_eq`).
-/

namespace ApiCanon.Json

namespace Value

lemma insertField_perm (k : String) (v : Value) (f : Fields) :
    (insertField k v f).Perm ((k, v) :: f) := by
  induction f with
  | nil => exact .refl _
  | cons p f ih =>
    obtain ⟨k', v'⟩ := p
    rw [insertField]
    split_ifs
    · exact (ih.cons _).trans (.swap _ _ _)
    · exact .refl _

/-- The canonical fields are the fields with canonical values, in another order. -/
lemma canonicalFields_perm (f : Fields) :
    (canonicalFields f).Perm (f.map fun p => (p.1, p.2.canonicalize)) := by
  induction f with
  | nil => exact .refl _
  | cons p f ih =>
    obtain ⟨k, v⟩ := p
    rw [canonicalFields, List.map_cons]
    exact (insertField_perm k v.canonicalize _).trans (ih.cons _)

lemma canonicalItems_eq_map (a : List Value) : canonicalItems a = a.map canonicalize := by
  induction a with
  | nil => rfl
  | cons v a ih => rw [canonicalItems, ih, List.map_cons]

lemma mem_canonicalFields {f : Fields} {p : String × Value} (h : p ∈ canonicalFields f) :
    ∃ q ∈ f, (q.1, q.2.canonicalize) = p :=
  List.mem_map.1 ((canonicalFields_perm f).mem_iff.1 h)

theorem Distinct.canonicalize {v : Value} (h : v.Distinct) : v.canonicalize.Distinct := by
  induction v using Value.induction with
  | null | bool | number | string => exact h
  | array a ih =>
    rw [Value.canonicalize, canonicalItems_eq_map]
    refine .array fun w hw => ?_
    obtain ⟨v, hv, rfl⟩ := List.mem_map.1 hw
    exact ih v hv (h.item v hv)
  | object f ih =>
    rw [Value.canonicalize]
    refine .object ?_ fun p hp => ?_
    · have keys : ((f.map fun p => (p.1, p.2.canonicalize)).map (·.1)).Nodup := by
        rw [List.map_map]
        exact h.keys
      exact ((canonicalFields_perm f).map _).nodup_iff.2 keys
    · obtain ⟨q, hq, rfl⟩ := mem_canonicalFields hp
      exact ih q hq (h.value q hq)

theorem Exact.canonicalize {v : Value} (h : v.Exact) : v.canonicalize.Exact := by
  induction v using Value.induction with
  | null | bool | number | string => exact h
  | array a ih =>
    rw [Value.canonicalize, canonicalItems_eq_map]
    refine .array fun w hw => ?_
    obtain ⟨v, hv, rfl⟩ := List.mem_map.1 hw
    exact ih v hv (h.item v hv)
  | object f ih =>
    rw [Value.canonicalize]
    refine .object fun p hp => ?_
    obtain ⟨q, hq, rfl⟩ := mem_canonicalFields hp
    exact ih q hq (h.value q hq)

/-! ## Look-up -/

lemma get?_insertField_self (k : String) (v : Value) (f : Fields) :
    Fields.get? k (insertField k v f) = some v := by
  induction f with
  | nil => rw [insertField, Fields.get?, if_pos rfl]
  | cons p f ih =>
    obtain ⟨k', v'⟩ := p
    rw [insertField]
    split_ifs with less
    · have other : k' ≠ k := by
        rintro rfl
        exact absurd less (String.lt_irrefl k')
      rw [Fields.get?, if_neg other, ih]
    · rw [Fields.get?, if_pos rfl]

lemma get?_insertField_of_ne {k l : String} (other : k ≠ l) (v : Value) (f : Fields) :
    Fields.get? l (insertField k v f) = Fields.get? l f := by
  induction f with
  | nil => simp [insertField, Fields.get?, other]
  | cons p f ih =>
    obtain ⟨k', v'⟩ := p
    rw [insertField]
    split_ifs
    · rw [Fields.get?, ih, Fields.get?]
    · rw [Fields.get?, if_neg other]

/-- A field of the canonical form has the canonical form of its value. -/
theorem get?_canonicalFields (k : String) (f : Fields) :
    Fields.get? k (canonicalFields f) = (Fields.get? k f).map canonicalize := by
  induction f with
  | nil => rfl
  | cons p f ih =>
    obtain ⟨l, v⟩ := p
    rw [canonicalFields, Fields.get?]
    split_ifs with same
    · subst same
      exact get?_insertField_self l v.canonicalize _
    · rw [get?_insertField_of_ne same, ih]

/-- Texts in fields do not depend on the order of the fields. -/
lemma stringField?_canonicalize (v : Value) (k : String) :
    v.canonicalize.stringField? k = v.stringField? k := by
  cases v with
  | object f =>
    have text : ∀ w : Value, w.canonicalize.asString? = w.asString? := by
      intro w
      cases w <;> rfl
    show (Fields.get? k (canonicalFields f)).bind asString? = (Fields.get? k f).bind asString?
    rw [get?_canonicalFields, Option.bind_map]
    congr 1
    funext w
    exact text w
  | _ => rfl

/-- Documents with one canonical text have one canonical form. -/
theorem canonicalize_eq_of_canonicalText_eq {v w : Value} (hv : v.Distinct) (hv' : v.Exact)
    (hw : w.Distinct) (hw' : w.Exact) (h : v.canonicalText = w.canonicalText) :
    v.canonicalize = w.canonicalize :=
  compact_injective hv.canonicalize hv'.canonicalize hw.canonicalize hw'.canonicalize h

end Value

end ApiCanon.Json
