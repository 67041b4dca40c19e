import ApiCanon.Json.Value
import ApiCanon.Proofs.Binary.Values
import Mathlib.Data.List.Nodup
import Mathlib.Data.List.Perm.Subperm

/-!
# Equality of documents

Two documents are *alike* when they differ in nothing but the order of fields and the notation of
numbers.  `Value.Alike` states this by what can be looked up in a value, and `same_iff_alike`
shows that the comparison `Value.same`, which counts fields and looks up one side in the other,
decides it.

The comparison presumes that no object has two fields of one name, as in every document that is
read from a text (`Value.Distinct`): of two fields with one name a look-up finds only the first.
-/

namespace ApiCanon.Json

/-! ## Decidability -/

namespace Value

mutual

/-- Equality as it is written, with the order of fields. -/
def decEq : (v w : Value) → Decidable (v = w)
  | null, null => isTrue rfl
  | bool a, bool b => decidable_of_iff (a = b) (by simp)
  | number m, number n => decidable_of_iff (m = n) (by simp)
  | string s, string t => decidable_of_iff (s = t) (by simp)
  | array l, array m =>
    have := decEqItems l m
    decidable_of_iff (l = m) (by simp)
  | object f, object g =>
    have := decEqFields f g
    decidable_of_iff (f = g) (by simp)
  | null, bool _ | null, number _ | null, string _ | null, array _ | null, object _
  | bool _, null | bool _, number _ | bool _, string _ | bool _, array _ | bool _, object _
  | number _, null | number _, bool _ | number _, string _ | number _, array _
  | number _, object _ | string _, null | string _, bool _ | string _, number _
  | string _, array _ | string _, object _ | array _, null | array _, bool _ | array _, number _
  | array _, string _ | array _, object _ | object _, null | object _, bool _
  | object _, number _ | object _, string _ | object _, array _ => isFalse nofun

def decEqItems : (l m : List Value) → Decidable (l = m)
  | [], [] => isTrue rfl
  | [], _ :: _ | _ :: _, [] => isFalse nofun
  | v :: l, w :: m =>
    have := decEq v w
    have := decEqItems l m
    decidable_of_iff (v = w ∧ l = m) (by simp)

def decEqFields : (f g : Fields) → Decidable (f = g)
  | [], [] => isTrue rfl
  | [], _ :: _ | _ :: _, [] => isFalse nofun
  | (k, v) :: f, (l, w) :: g =>
    have := decEq v w
    have := decEqFields f g
    decidable_of_iff (k = l ∧ v = w ∧ f = g) (by simp [and_assoc])

end

instance : DecidableEq Value := decEq

end Value

/-! ## Induction -/

namespace Value

/-- Induction on a document: the items of a list and the values of the fields come first. -/
@[elab_as_elim]
theorem induction {P : Value → Prop} (null : P .null) (bool : ∀ b, P (.bool b))
    (number : ∀ n, P (.number n)) (string : ∀ s, P (.string s))
    (array : ∀ a, (∀ v ∈ a, P v) → P (.array a))
    (object : ∀ f : Fields, (∀ p ∈ f, P p.2) → P (.object f)) (v : Value) : P v := by
  refine @Value.rec P (fun a => ∀ v ∈ a, P v) (fun f => ∀ p ∈ f, P p.2) (fun p => P p.2)
    null bool number string array object (by simp) ?_ (by simp) ?_ (fun _ _ h => h) v
  · intro v a hv ha w hw
    rcases List.mem_cons.1 hw with rfl | hw
    · exact hv
    · exact ha w hw
  · intro p f hp hf q hq
    rcases List.mem_cons.1 hq with rfl | hq
    · exact hp
    · exact hf q hq

/-- No object in a value has two fields of one name. -/
inductive Distinct : Value → Prop where
  | null : Distinct .null
  | bool (b : Bool) : Distinct (.bool b)
  | number (n : Number) : Distinct (.number n)
  | string (s : String) : Distinct (.string s)
  | array {a : List Value} (items : ∀ v ∈ a, Distinct v) : Distinct (.array a)
  | object {f : Fields} (keys : (f.map (·.1)).Nodup) (values : ∀ p ∈ f, Distinct p.2) :
      Distinct (.object f)

lemma Distinct.item {a : List Value} (h : Distinct (.array a)) : ∀ v ∈ a, Distinct v := by
  cases h with
  | array items => exact items

lemma Distinct.keys {f : Fields} (h : Distinct (.object f)) : (f.map (·.1)).Nodup := by
  cases h with
  | object keys _ => exact keys

lemma Distinct.value {f : Fields} (h : Distinct (.object f)) : ∀ p ∈ f, Distinct p.2 := by
  cases h with
  | object _ values => exact values

/-- Two documents that differ in nothing but the order of fields and the notation of numbers. -/
inductive Alike : Value → Value → Prop where
  | null : Alike .null .null
  | bool (b : Bool) : Alike (.bool b) (.bool b)
  | number {m n : Number} (equal : m.same n) : Alike (.number m) (.number n)
  | string (s : String) : Alike (.string s) (.string s)
  | array {a b : List Value} (length : a.length = b.length)
      (items : ∀ (i : Nat) (v w : Value), a[i]? = some v → b[i]? = some w → Alike v w) :
      Alike (.array a) (.array b)
  | object {f g : Fields} (keys : ∀ k, k ∈ f.map (·.1) ↔ k ∈ g.map (·.1))
      (values : ∀ (k : String) (v w : Value), Fields.get? k f = some v →
        Fields.get? k g = some w → Alike v w) : Alike (.object f) (.object g)

end Value

/-! ## Look-up in fields -/

namespace Fields

lemma mem_of_get? {k : String} {v : Value} {f : Fields} (h : Fields.get? k f = some v) :
    (k, v) ∈ f := by
  induction f with
  | nil => simp at h
  | cons p r ih =>
    obtain ⟨k', v'⟩ := p
    by_cases hk : k' = k
    · simp only [get?, hk, if_true, Option.some.injEq] at h
      simp [hk, h]
    · simp only [get?, hk, if_false] at h
      exact List.mem_cons_of_mem _ (ih h)

lemma exists_get? {k : String} {f : Fields} (h : k ∈ f.map (·.1)) :
    ∃ v, Fields.get? k f = some v := by
  induction f with
  | nil => simp at h
  | cons p r ih =>
    obtain ⟨k', v'⟩ := p
    by_cases hk : k' = k
    · exact ⟨v', by simp [get?, hk]⟩
    · have hr : k ∈ r.map (·.1) := by
        rcases List.mem_cons.1 h with rfl | h
        · exact absurd rfl hk
        · exact h
      obtain ⟨v, hv⟩ := ih hr
      exact ⟨v, by simp [get?, hk, hv]⟩

lemma mem_keys_of_get? {k : String} {v : Value} {f : Fields} (h : Fields.get? k f = some v) :
    k ∈ f.map (·.1) :=
  List.mem_map.2 ⟨(k, v), mem_of_get? h, rfl⟩

/-- Where the names are distinct, every field is the one that a look-up finds. -/
lemma get?_of_mem {k : String} {v : Value} {f : Fields} (keys : (f.map (·.1)).Nodup)
    (h : (k, v) ∈ f) : Fields.get? k f = some v := by
  obtain ⟨w, hw⟩ := exists_get? (List.mem_map.2 ⟨(k, v), h, rfl⟩)
  have : (k, w) = (k, v) := List.inj_on_of_nodup_map keys (mem_of_get? hw) h rfl
  rw [hw, (Prod.mk.inj this).2]

end Fields

/-! ## Equality of numbers -/

namespace Number

lemma same_refl (n : Number) : n.same n := by
  cases n with
  | int i => simp [same]
  | float x => exact Binary.Finite.sameValue_refl x

lemma same_symm {m n : Number} (h : m.same n) : n.same m := by
  cases m <;> cases n <;> simp only [same, Bool.false_eq_true] at h ⊢
  case int.int i j => exact beq_iff_eq.2 (beq_iff_eq.1 h).symm
  case float.float x y => exact Binary.Finite.sameValue_symm h

lemma same_trans {l m n : Number} (h : l.same m) (h' : m.same n) : l.same n := by
  cases l <;> cases m <;> cases n <;> simp only [same, Bool.false_eq_true] at h h' ⊢
  case int.int.int i j k => exact beq_iff_eq.2 ((beq_iff_eq.1 h).trans (beq_iff_eq.1 h'))
  case float.float.float x y z => exact Binary.Finite.sameValue_trans h h'

end Number

/-! ## Equality of documents -/

namespace Value

lemma sameItems_iff (a b : List Value) : sameItems a b ↔
    a.length = b.length ∧
      ∀ (i : Nat) (v w : Value), a[i]? = some v → b[i]? = some w → same v w := by
  induction a generalizing b with
  | nil => cases b <;> simp [sameItems]
  | cons x r ih =>
    cases b with
    | nil => simp [sameItems]
    | cons y s =>
      simp only [sameItems, Bool.and_eq_true, ih, List.length_cons, Nat.add_right_cancel_iff]
      constructor
      · rintro ⟨hxy, hl, h⟩
        refine ⟨hl, fun i v w hv hw => ?_⟩
        cases i with
        | zero =>
          simp only [List.getElem?_cons_zero, Option.some.injEq] at hv hw
          rw [← hv, ← hw]
          exact hxy
        | succ i => exact h i v w (by simpa using hv) (by simpa using hw)
      · rintro ⟨hl, h⟩
        exact ⟨h 0 x y rfl rfl, hl, fun i v w hv hw => h (i + 1) v w (by simpa) (by simpa)⟩

lemma sameFields_iff (f g : Fields) : sameFields f g ↔
    ∀ p ∈ f, ∃ w, Fields.get? p.1 g = some w ∧ same p.2 w := by
  induction f with
  | nil => simp [sameFields]
  | cons p r ih =>
    obtain ⟨k, v⟩ := p
    simp only [sameFields, Bool.and_eq_true, ih, List.forall_mem_cons]
    cases h : Fields.get? k g <;> simp

/-- A field list that is covered by another of its length has the same names. -/
lemma keys_iff_of_subset {f g : Fields} (hf : (f.map (·.1)).Nodup)
    (length : f.length = g.length) (sub : ∀ k ∈ f.map (·.1), k ∈ g.map (·.1)) (k : String) :
    k ∈ f.map (·.1) ↔ k ∈ g.map (·.1) := by
  have perm : (f.map (·.1)).Perm (g.map (·.1)) :=
    (hf.subperm sub).perm_of_length_le (by simp [length])
  exact perm.mem_iff

/-- Objects are compared by their names and by what is found under each. -/
lemma same_object_iff {f g : Fields} (hf : (f.map (·.1)).Nodup) (hg : (g.map (·.1)).Nodup) :
    same (.object f) (.object g) ↔ (∀ k, k ∈ f.map (·.1) ↔ k ∈ g.map (·.1)) ∧
      ∀ (k : String) (v w : Value), Fields.get? k f = some v → Fields.get? k g = some w →
        same v w := by
  simp only [same, Bool.and_eq_true, beq_iff_eq, sameFields_iff]
  constructor
  · rintro ⟨length, fields⟩
    have sub : ∀ k ∈ f.map (·.1), k ∈ g.map (·.1) := by
      intro k hk
      obtain ⟨p, hp, rfl⟩ := List.mem_map.1 hk
      obtain ⟨w, hw, -⟩ := fields p hp
      exact Fields.mem_keys_of_get? hw
    refine ⟨keys_iff_of_subset hf length sub, fun k v w hv hw => ?_⟩
    obtain ⟨w', hw', hsame⟩ := fields _ (Fields.mem_of_get? hv)
    obtain rfl : w' = w := Option.some.inj (hw'.symm.trans hw)
    exact hsame
  · rintro ⟨keys, values⟩
    have perm : (f.map (·.1)).Perm (g.map (·.1)) := (List.perm_ext_iff_of_nodup hf hg).2 keys
    refine ⟨by simpa using perm.length_eq, fun p hp => ?_⟩
    obtain ⟨w, hw⟩ := Fields.exists_get? ((keys p.1).1 (List.mem_map.2 ⟨p, hp, rfl⟩))
    exact ⟨w, hw, values _ _ _ (Fields.get?_of_mem hf hp) hw⟩

/-- The comparison of documents decides whether they are alike. -/
theorem same_iff_alike {v w : Value} (hv : v.Distinct) (hw : w.Distinct) :
    v.same w ↔ v.Alike w := by
  induction v using Value.induction generalizing w with
  | null =>
    constructor
    · intro h
      cases w <;> simp only [same, Bool.false_eq_true] at h
      exact .null
    · intro h
      cases h
      simp [same]
  | bool b =>
    constructor
    · intro h
      cases w <;> simp only [same, Bool.false_eq_true, beq_iff_eq] at h
      exact h ▸ .bool b
    · intro h
      cases h
      simp [same]
  | number n =>
    constructor
    · intro h
      cases w <;> simp only [same, Bool.false_eq_true] at h
      exact .number h
    · intro h
      cases h with
      | number equal => simpa [same] using equal
  | string s =>
    constructor
    · intro h
      cases w <;> simp only [same, Bool.false_eq_true, beq_iff_eq] at h
      exact h ▸ .string s
    · intro h
      cases h
      simp [same]
  | array a ih =>
    constructor
    · intro h
      cases w <;> simp only [same, Bool.false_eq_true, sameItems_iff] at h
      obtain ⟨length, items⟩ := h
      refine .array length fun i v w hi hj => ?_
      exact (ih v (List.mem_of_getElem? hi) (hv.item v (List.mem_of_getElem? hi))
        (hw.item w (List.mem_of_getElem? hj))).1 (items i v w hi hj)
    · intro h
      cases h with
      | array length items =>
        simp only [same, sameItems_iff]
        refine ⟨length, fun i v w hi hj => ?_⟩
        exact (ih v (List.mem_of_getElem? hi) (hv.item v (List.mem_of_getElem? hi))
          (hw.item w (List.mem_of_getElem? hj))).2 (items i v w hi hj)
  | object f ih =>
    constructor
    · intro h
      cases w with
      | object g =>
        obtain ⟨keys, values⟩ := (same_object_iff hv.keys hw.keys).1 h
        refine .object keys fun k v w hf hg => ?_
        have hmem := Fields.mem_of_get? hf
        exact (ih _ hmem (hv.value _ hmem) (hw.value _ (Fields.mem_of_get? hg))).1
          (values k v w hf hg)
      | _ => cases h
    · intro h
      cases h with
      | object keys values =>
        refine (same_object_iff hv.keys hw.keys).2 ⟨keys, fun k v w hf hg => ?_⟩
        have hmem := Fields.mem_of_get? hf
        exact (ih _ hmem (hv.value _ hmem) (hw.value _ (Fields.mem_of_get? hg))).2
          (values k v w hf hg)

/-! ## Alikeness is an equivalence -/

theorem alike_refl (v : Value) : v.Alike v := by
  induction v using Value.induction with
  | null => exact .null
  | bool b => exact .bool b
  | number n => exact .number n.same_refl
  | string s => exact .string s
  | array a ih =>
    refine .array rfl fun i v w hv hw => ?_
    obtain rfl : v = w := Option.some.inj (hv.symm.trans hw)
    exact ih v (List.mem_of_getElem? hv)
  | object f ih =>
    refine .object (fun _ => Iff.rfl) fun k v w hv hw => ?_
    obtain rfl : v = w := Option.some.inj (hv.symm.trans hw)
    exact ih _ (Fields.mem_of_get? hv)

theorem Alike.symm {v w : Value} (h : v.Alike w) : w.Alike v := by
  induction h with
  | null => exact .null
  | bool b => exact .bool b
  | number equal => exact .number (Number.same_symm equal)
  | string s => exact .string s
  | array length _ ih => exact .array length.symm fun i v w hv hw => ih i w v hw hv
  | object keys _ ih =>
    exact .object (fun k => (keys k).symm) fun k v w hv hw => ih k w v hw hv

theorem Alike.trans {u v w : Value} (h : u.Alike v) (h' : v.Alike w) : u.Alike w := by
  induction h generalizing w with
  | null => exact h'
  | bool b => exact h'
  | number equal =>
    cases h' with
    | number equal' => exact .number (Number.same_trans equal equal')
  | string s => exact h'
  | @array a b length items ih =>
    cases h' with
    | @array _ c length' items' =>
      refine .array (length.trans length') fun i x z hx hz => ?_
      -- the item between the two stands at the same place
      obtain ⟨y, hy⟩ : ∃ y, b[i]? = some y := by
        have hi := (List.getElem?_eq_some_iff.1 hx).1
        exact ⟨b[i], List.getElem?_eq_getElem (length ▸ hi)⟩
      exact ih i x y hx hy (items' i y z hy hz)
  | @object f g keys values ih =>
    cases h' with
    | @object _ k keys' values' =>
      refine .object (fun n => (keys n).trans (keys' n)) fun n x z hx hz => ?_
      obtain ⟨y, hy⟩ := Fields.exists_get? ((keys n).1 (Fields.mem_keys_of_get? hx))
      exact ih n x y hx hy (values' n y z hy hz)

end Value

end ApiCanon.Json
