import ApiCanon.Proofs.Json.Canonical
import ApiCanon.Proofs.Json.Texts
import Mathlib.Data.List.Forall2

/-!
# Documents that differ in the order of fields

`Value.Reordered` says of two documents that one becomes the other when the fields of its objects
are reordered, at any depth.  Numbers are compared as they are held: a whole number is no fraction,
and the zeros of both signs are two.

The canonical form is a normal form for this relation (`canonicalize_eq_iff`), and so is the
canonical text (`canonicalText_eq_iff`).
-/

namespace ApiCanon.Json.Value

/-- One document becomes the other by reordering the fields of objects at any depth. -/
inductive Reordered : Value → Value → Prop where
  | null : Reordered .null .null
  | bool (b : Bool) : Reordered (.bool b) (.bool b)
  | number (n : Number) : Reordered (.number n) (.number n)
  | string (s : String) : Reordered (.string s) (.string s)
  | array {a b : List Value} (items : List.Forall₂ Reordered a b) :
      Reordered (.array a) (.array b)
  | object {f g h : Fields} (names : f.map (·.1) = g.map (·.1))
      (values : List.Forall₂ Reordered (f.map (·.2)) (g.map (·.2))) (moved : g.Perm h) :
      Reordered (.object f) (.object h)

/-! ## Sorted fields -/

/-- A field with its value in canonical form. -/
def canonicalField (p : String × Value) : String × Value := (p.1, p.2.canonicalize)

/-- No field stands behind one with a greater name. -/
def Ascending (f : Fields) : Prop := f.Pairwise fun p q => p.1 ≤ q.1

lemma ascending_insertField (k : String) (v : Value) {f : Fields} (h : Ascending f) :
    Ascending (insertField k v f) := by
  induction f with
  | nil => exact List.pairwise_singleton _ _
  | cons p f ih =>
    obtain ⟨k', v'⟩ := p
    obtain ⟨least, rest⟩ := List.pairwise_cons.1 h
    rw [insertField]
    split_ifs with less
    · refine List.pairwise_cons.2 ⟨fun q hq => ?_, ih rest⟩
      rcases List.mem_cons.1 ((insertField_perm k v f).mem_iff.1 hq) with rfl | hq
      · exact String.not_lt.1 (String.lt_asymm less)
      · exact least q hq
    · have before : k ≤ k' := String.not_lt.1 less
      refine List.pairwise_cons.2 ⟨fun q hq => ?_, h⟩
      rcases List.mem_cons.1 hq with rfl | hq
      · exact before
      · exact String.le_trans before (least q hq)

lemma ascending_canonicalFields (f : Fields) : Ascending (canonicalFields f) := by
  induction f with
  | nil => exact List.Pairwise.nil
  | cons p f ih =>
    obtain ⟨k, v⟩ := p
    exact ascending_insertField k v.canonicalize ih

/-- Fields with distinct names have one ascending order. -/
lemma canonicalFields_eq_of_perm {f g : Fields} (keys : (f.map (·.1)).Nodup)
    (perm : (f.map canonicalField).Perm (g.map canonicalField)) :
    canonicalFields f = canonicalFields g := by
  have moved : (canonicalFields f).Perm (canonicalFields g) :=
    (canonicalFields_perm f).trans (perm.trans (canonicalFields_perm g).symm)
  have names : ((canonicalFields f).map (·.1)).Nodup := by
    have : ((f.map canonicalField).map (·.1)).Nodup := by
      rw [List.map_map]
      exact keys
    exact ((canonicalFields_perm f).map _).nodup_iff.2 this
  refine moved.eq_of_pairwise ?_ (ascending_canonicalFields f) (ascending_canonicalFields g)
  intro p q hp hq le ge
  exact List.inj_on_of_nodup_map names hp (moved.mem_iff.2 hq) (String.le_antisymm le ge)

/-! ## The normal form -/

section Lists

variable {α β γ : Type} {R : α → β → Prop} {φ : α → γ} {ψ : β → γ} {a : List α} {b : List β}

/-- Lists that are related one by one have one image. -/
lemma map_eq_map_of_forall₂ (related : List.Forall₂ R a b)
    (image : ∀ x ∈ a, ∀ y, R x y → φ x = ψ y) : a.map φ = b.map ψ := by
  induction related with
  | nil => rfl
  | cons head tail ih =>
    rw [List.map_cons, List.map_cons, image _ List.mem_cons_self _ head,
      ih fun x hx => image x (List.mem_cons_of_mem _ hx)]

/-- Lists that have one image are related one by one. -/
lemma forall₂_of_map_eq_map (same : a.map φ = b.map ψ)
    (related : ∀ x ∈ a, ∀ y, φ x = ψ y → R x y) : List.Forall₂ R a b := by
  induction a generalizing b with
  | nil =>
    cases b with
    | nil => exact .nil
    | cons y b => cases same
  | cons x a ih =>
    cases b with
    | nil => cases same
    | cons y b =>
      obtain ⟨head, tail⟩ := List.cons.inj same
      exact .cons (related x List.mem_cons_self y head)
        (ih tail fun z hz => related z (List.mem_cons_of_mem x hz))

end Lists

/-- The canonical form is kept when fields are reordered. -/
lemma Reordered.canonicalize_eq {v w : Value} (distinct : v.Distinct) (h : Reordered v w) :
    v.canonicalize = w.canonicalize := by
  induction v using Value.induction generalizing w with
  | null | bool | number | string =>
    cases h
    rfl
  | array a ih =>
    cases h with
    | array items =>
      rename_i b
      have same : a.map Value.canonicalize = b.map Value.canonicalize :=
        map_eq_map_of_forall₂ items fun v hv w => ih v hv (distinct.item v hv)
      rw [Value.canonicalize, Value.canonicalize, canonicalItems_eq_map, canonicalItems_eq_map,
        same]
  | object f ih =>
    cases h with
    | object names values moved =>
      rename_i g h
      have same : (f.map (·.2)).map Value.canonicalize = (g.map (·.2)).map Value.canonicalize := by
        refine map_eq_map_of_forall₂ values fun v hv w related => ?_
        obtain ⟨p, hp, rfl⟩ := List.mem_map.1 hv
        exact ih p hp (distinct.value p hp) related
      have fields : f.map canonicalField = g.map canonicalField := by
        have split : ∀ f : Fields, f.map canonicalField =
            (f.map (·.1)).zip ((f.map (·.2)).map Value.canonicalize) := by
          intro f
          induction f with
          | nil => rfl
          | cons p f ih => rw [List.map_cons, ih]; rfl
        rw [split, split, names, same]
      have perm : (f.map canonicalField).Perm (h.map canonicalField) := by
        rw [fields]
        exact moved.map _
      rw [Value.canonicalize, Value.canonicalize, canonicalFields_eq_of_perm distinct.keys perm]

/-- Documents with one canonical form are one document up to the order of fields. -/
lemma reordered_of_canonicalize_eq {v w : Value} (h : v.canonicalize = w.canonicalize) :
    Reordered v w := by
  induction v using Value.induction generalizing w with
  | null =>
    cases w with
    | null => exact .null
    | _ => cases h
  | bool b =>
    cases w with
    | bool c =>
      cases h
      exact .bool b
    | _ => cases h
  | number n =>
    cases w with
    | number m =>
      cases h
      exact .number n
    | _ => cases h
  | string s =>
    cases w with
    | string t =>
      cases h
      exact .string s
    | _ => cases h
  | array a ih =>
    cases w with
    | array b =>
      rw [Value.canonicalize, Value.canonicalize, canonicalItems_eq_map,
        canonicalItems_eq_map] at h
      exact .array (forall₂_of_map_eq_map (Value.array.inj h) fun v hv w => ih v hv)
    | _ => cases h
  | object f ih =>
    cases w with
    | object h' =>
      rw [Value.canonicalize, Value.canonicalize] at h
      have perm : (f.map canonicalField).Perm (h'.map canonicalField) := by
        have same := Value.object.inj h
        exact (canonicalFields_perm f).symm.trans (same ▸ canonicalFields_perm h')
      -- the other fields in the order of these
      have images : List.Forall₂ (fun p q => p = canonicalField q) (h'.map canonicalField) h' := by
        rw [List.forall₂_map_left_iff]
        exact List.forall₂_refl _
      obtain ⟨g, related, moved⟩ := List.perm_comp_forall₂ perm images
      have fields : List.Forall₂ (fun p q => canonicalField p = canonicalField q) f g :=
        List.forall₂_map_left_iff.1 related
      refine .object (map_eq_map_of_forall₂ fields fun p _ q same => (Prod.mk.inj same).1) ?_ moved
      refine List.forall₂_map_left_iff.2 (List.forall₂_map_right_iff.2 ?_)
      refine forall₂_of_map_eq_map (map_eq_map_of_forall₂ fields fun p _ q same => same) ?_
      exact fun p hp q same => ih p hp (Prod.mk.inj same).2
    | _ => cases h

/-- **The canonical form is a normal form for the order of fields.** -/
theorem canonicalize_eq_iff {v w : Value} (distinct : v.Distinct) :
    v.canonicalize = w.canonicalize ↔ Reordered v w :=
  ⟨reordered_of_canonicalize_eq, Reordered.canonicalize_eq distinct⟩

/-! ## The canonical text -/

theorem Doubles.canonicalize {v : Value} (h : v.Doubles) : v.canonicalize.Doubles := by
  induction v using Value.induction with
  | null | bool | number | string => exact h
  | array a ih =>
    rw [Value.canonicalize, canonicalItems_eq_map]
    refine .array fun w hw => ?_
    obtain ⟨v, hv, rfl⟩ := List.mem_map.1 hw
    exact ih v hv (h.item v hv)
  | object f ih =>
    rw [Value.canonicalize]
    refine .object fun p hp => ?_
    obtain ⟨q, hq, rfl⟩ := mem_canonicalFields hp
    exact ih q hq (h.value q hq)

/-- Reordered fields take the same room. -/
lemma length_compactChars_canonicalize (v : Value) :
    (compactChars v.canonicalize).length = (compactChars v).length := by
  induction v using Value.induction with
  | null | bool | number | string => rfl
  | array a ih =>
    have items : (a.map canonicalize).map (fun v => (compactChars v).length) =
        a.map fun v => (compactChars v).length := by
      rw [List.map_map]
      exact List.map_congr_left ih
    simp only [Value.canonicalize, canonicalItems_eq_map, compactChars, List.length_append,
      List.length_cons, compactItems_eq_parts, length_parts, items, List.length_map]
  | object f ih =>
    have moved := canonicalFields_perm f
    have fields : ((canonicalFields f).map fun p => (compactField p).length).sum =
        (f.map fun p => (compactField p).length).sum := by
      rw [(moved.map _).sum_nat, List.map_map]
      refine congrArg List.sum (List.map_congr_left fun p hp => ?_)
      simp only [Function.comp_apply, compactField, List.length_append, List.length_cons, ih p hp]
    have count : (canonicalFields f).length = f.length := by
      rw [moved.length_eq, List.length_map]
    simp only [Value.canonicalize, compactChars, List.length_append, List.length_cons,
      compactFields_eq_parts, length_parts, fields, count]

/-- What a document is: names are not repeated in its objects, and its fractions are doubles. -/
structure Document (v : Value) : Prop where
  distinct : v.Distinct
  doubles : v.Doubles

/-- **The canonical text of a document tells it up to the order of fields**, and no more. -/
theorem canonicalText_eq_iff {v w : Value} (hv : v.Document) (hw : w.Document) :
    v.canonicalText = w.canonicalText ↔ Reordered v w := by
  rw [← canonicalize_eq_iff hv.distinct]
  constructor
  · exact eq_of_compact_eq hv.doubles.canonicalize hw.doubles.canonicalize
  · exact congrArg Value.compact

end ApiCanon.Json.Value
