import ApiCanon.Collection.SortedMap
import Mathlib.Data.List.Induction
import Mathlib.Data.List.Nodup
import Mathlib.Data.List.Sort
import Mathlib.Tactic.Lemma
import Mathlib.Tactic.Tauto

/-!
# Maps by their look-ups

A sorted map is determined by what can be looked up in it (`ext_get?`), and a look-up finds
exactly the entries (`get?_eq_some_iff`).  A map lies within another one if all that it has is
there as well (`Within`); what is done to both of them keeps it there.  The names of a list in
ascending order are the same names (`mem_sortedNames`), each once (`nodup_sortedNames`).
-/

namespace ApiCanon.SortedMap

variable {α : Type}

lemma nodup_keys (m : SortedMap α) : m.keys.Nodup := by
  have ascending : m.keys.Pairwise (· < ·) := List.pairwise_map.2 m.ascending
  exact ascending.imp fun h => String.ne_of_lt h

lemma lookup_eq_some_iff {l : List (String × α)} (distinct : (l.map (·.1)).Nodup) (k : String)
    (v : α) : l.lookup k = some v ↔ (k, v) ∈ l := by
  induction l with
  | nil => simp
  | cons p r ih =>
    obtain ⟨k', v'⟩ := p
    obtain ⟨fresh, distinct⟩ := List.nodup_cons.1 distinct
    by_cases hk : k = k'
    · subst hk
      have hr : (k, v) ∉ r := fun h => fresh (List.mem_map.2 ⟨_, h, rfl⟩)
      simp [hr, eq_comm]
    · have hk' : (k == k') = false := by simpa using hk
      simp [List.lookup_cons, hk', hk, ih distinct]

/-- A look-up finds exactly the entries. -/
theorem get?_eq_some_iff (m : SortedMap α) (k : String) (v : α) :
    m.get? k = some v ↔ (k, v) ∈ m.entries :=
  lookup_eq_some_iff m.nodup_keys k v

lemma mem_keys_iff (m : SortedMap α) (k : String) : k ∈ m.keys ↔ ∃ v, m.get? k = some v := by
  simp only [get?_eq_some_iff, keys, List.mem_map, Prod.exists, exists_eq_right, exists_and_right]

lemma mem_values_iff (m : SortedMap α) (v : α) : v ∈ m.values ↔ ∃ k, m.get? k = some v := by
  simp only [get?_eq_some_iff, values, List.mem_map, Prod.exists, exists_eq_right]

/-- A map is determined by its look-ups. -/
theorem ext_get? {m n : SortedMap α} (h : ∀ k, m.get? k = n.get? k) : m = n := by
  have perm : m.entries.Perm n.entries := by
    refine (List.perm_ext_iff_of_nodup m.nodup_keys.of_map n.nodup_keys.of_map).2 ?_
    rintro ⟨k, v⟩
    rw [← get?_eq_some_iff, ← get?_eq_some_iff, h]
  refine ext_entries (perm.eq_of_pairwise ?_ m.ascending n.ascending)
  intro a b _ _ hab hba
  exact absurd hba (String.lt_asymm hab)

lemma ext_get?_iff {m n : SortedMap α} :
    m = n ↔ ∀ k v, m.get? k = some v ↔ n.get? k = some v :=
  ⟨fun h _ _ => h ▸ Iff.rfl, fun h => ext_get? fun k => Option.ext fun v => h k v⟩

lemma get?_insert (m : SortedMap α) (k l : String) (v : α) :
    (m.insert k v).get? l = if l = k then some v else m.get? l := by
  by_cases h : l = k
  · rw [h, if_pos rfl, get?_insert_self]
  · rw [if_neg h, get?_insert_of_ne m h]

/-! ## Maps within maps -/

lemma get?_erase (m : SortedMap α) (k l : String) :
    (m.erase k).get? l = if l = k then none else m.get? l := by
  split_ifs with h
  · rw [h, get?_erase_self]
  · exact get?_erase_of_ne m h

lemma get?_filter_eq_some_iff (m : SortedMap α) (p : String → α → Bool) (k : String) (v : α) :
    (m.filter p).get? k = some v ↔ m.get? k = some v ∧ p k v = true := by
  rw [get?_eq_some_iff, get?_eq_some_iff, filter, List.mem_filter]

lemma size_sub_size_filter (m : SortedMap α) (p : String → α → Bool) :
    m.size - (m.filter p).size = (m.filter fun k v => !p k v).size := by
  have split := List.length_eq_length_filter_add (l := m.entries) fun e => p e.1 e.2
  simp only [size, filter]
  omega

/-- All entries of a map are entries of the other one. -/
def Within (a m : SortedMap α) : Prop := ∀ k v, a.get? k = some v → m.get? k = some v

lemma within_refl (m : SortedMap α) : m.Within m := fun _ _ h => h

lemma Within.subset {a m : SortedMap α} (h : a.Within m) : a.entries ⊆ m.entries :=
  fun ⟨k, v⟩ hp => (m.get?_eq_some_iff k v).1 (h k v ((a.get?_eq_some_iff k v).2 hp))

lemma Within.insert {a m : SortedMap α} (h : a.Within m) (key : String) (v : α) :
    (a.insert key v).Within (m.insert key v) := by
  intro k w hk
  rw [get?_insert] at hk ⊢
  split_ifs at hk ⊢
  · exact hk
  · exact h k w hk

lemma Within.erase {a m : SortedMap α} (h : a.Within m) (key : String) :
    (a.erase key).Within (m.erase key) := by
  intro k w hk
  rw [get?_erase] at hk ⊢
  split_ifs at hk ⊢
  exact h k w hk

lemma Within.contains {a m : SortedMap α} (h : a.Within m) {key : String}
    (ha : a.contains key = true) : m.contains key = true := by
  obtain ⟨v, hv⟩ := Option.isSome_iff_exists.1 ha
  exact Option.isSome_iff_exists.2 ⟨v, h key v hv⟩

lemma Within.filter {a m : SortedMap α} (h : a.Within m) (p : String → α → Bool) :
    (a.filter p).Within (m.filter p) := by
  intro k v hv
  obtain ⟨hv, hp⟩ := (a.get?_filter_eq_some_iff p k v).1 hv
  exact (m.get?_filter_eq_some_iff p k v).2 ⟨h k v hv, hp⟩

/-- A map within another one loses no more entries than that one. -/
lemma Within.size_sub_size_filter_le {a m : SortedMap α} (h : a.Within m)
    (p : String → α → Bool) :
    a.size - (a.filter p).size ≤ m.size - (m.filter p).size := by
  rw [size_sub_size_filter, size_sub_size_filter]
  have distinct := (a.filter fun k v => !p k v).nodup_keys.of_map
  exact (List.subperm_of_subset distinct (h.filter _).subset).length_le

/-- Which entries stay depends on the entries that are there. -/
lemma filter_congr {m : SortedMap α} {p q : String → α → Bool}
    (h : ∀ k v, m.get? k = some v → p k v = q k v) : m.filter p = m.filter q := by
  refine ext_entries (List.filter_congr fun e he => ?_)
  exact h e.1 e.2 ((m.get?_eq_some_iff e.1 e.2).2 he)

/-! ## Images -/

section Images

variable {β : Type} (f : α → β)

/-- The map with the image of every value. -/
def mapValues (m : SortedMap α) : SortedMap β where
  entries := m.entries.map fun p => (p.1, f p.2)
  ascending := by
    refine List.pairwise_map.2 ?_
    exact m.ascending

@[simp] lemma get?_mapValues (m : SortedMap α) (k : String) :
    (m.mapValues f).get? k = (m.get? k).map f := by
  have lookup : ∀ l : List (String × α),
      (l.map fun p => (p.1, f p.2)).lookup k = (l.lookup k).map f := by
    intro l
    induction l with
    | nil => rfl
    | cons p l ih =>
      rw [List.map_cons, List.lookup_cons, List.lookup_cons, ih]
      cases k == p.1 <;> rfl
  exact lookup m.entries

@[simp] lemma size_mapValues (m : SortedMap α) : (m.mapValues f).size = m.size :=
  List.length_map _

@[simp] lemma contains_mapValues (m : SortedMap α) (k : String) :
    (m.mapValues f).contains k = m.contains k := by
  rw [contains, contains, get?_mapValues, Option.isSome_map]

lemma mapValues_insert (m : SortedMap α) (k : String) (v : α) :
    (m.insert k v).mapValues f = (m.mapValues f).insert k (f v) := by
  refine ext_get? fun l => ?_
  rw [get?_mapValues, get?_insert, get?_insert, get?_mapValues]
  split_ifs <;> rfl

lemma mapValues_filter (m : SortedMap α) (p : String → β → Bool) :
    (m.filter fun k v => p k (f v)).mapValues f = (m.mapValues f).filter p := by
  refine ext_entries ?_
  show List.map _ (List.filter _ m.entries) = List.filter _ (List.map _ m.entries)
  rw [List.filter_map]
  rfl

lemma mapValues_erase (m : SortedMap α) (k : String) :
    (m.erase k).mapValues f = (m.mapValues f).erase k :=
  mapValues_filter f m fun l _ => l != k

end Images

/-! ## Maps from lists -/

lemma mem_keys_insert (m : SortedMap α) (k l : String) (v : α) :
    l ∈ (m.insert k v).keys ↔ l = k ∨ l ∈ m.keys := by
  simp only [mem_keys_iff, get?_insert]
  by_cases h : l = k <;> simp [h]

lemma mem_keys_foldl_insert (l : List (String × α)) (m : SortedMap α) (k : String) :
    k ∈ (l.foldl (fun m (k, v) => m.insert k v) m).keys ↔ k ∈ l.map (·.1) ∨ k ∈ m.keys := by
  induction l generalizing m with
  | nil => simp
  | cons p r ih =>
    rw [List.foldl_cons, ih, mem_keys_insert, List.map_cons, List.mem_cons]
    tauto

lemma mem_keys_ofList (l : List (String × α)) (k : String) :
    k ∈ (ofList l).keys ↔ k ∈ l.map (·.1) := by
  have empty : k ∉ (empty : SortedMap α).keys := by simp [keys, SortedMap.empty]
  rw [ofList, mem_keys_foldl_insert]
  simp only [empty, or_false]

lemma get?_foldl_insert {l : List (String × α)} (distinct : (l.map (·.1)).Nodup)
    (m : SortedMap α) (k : String) :
    (l.foldl (fun m (k, v) => m.insert k v) m).get? k = (l.lookup k <|> m.get? k) := by
  induction l generalizing m with
  | nil => simp
  | cons p r ih =>
    obtain ⟨k', v'⟩ := p
    obtain ⟨fresh, rest⟩ := List.nodup_cons.1 distinct
    rw [List.foldl_cons, ih rest, get?_insert]
    by_cases hk : k = k'
    · subst hk
      have hr : r.lookup k = none := by
        refine Option.eq_none_iff_forall_ne_some.2 fun v hv => fresh ?_
        exact List.mem_map.2 ⟨_, (lookup_eq_some_iff rest k v).1 hv, rfl⟩
      simp [hr]
    · have hk' : (k == k') = false := by simpa using hk
      simp [hk, hk', List.lookup_cons]

/-- Of several entries of one key the last one counts. -/
lemma get?_ofList_map {β : Type} (key : β → String) (value : β → α) (l : List β) (k : String) :
    (ofList (l.map fun b => (key b, value b))).get? k =
      (l.reverse.find? fun b => key b == k).map value := by
  induction l using List.reverseRecOn with
  | nil => exact get?_empty k
  | append_singleton l b ih =>
    rw [ofList, List.map_append, List.foldl_append, ← ofList, List.map_singleton, List.foldl_cons,
      List.foldl_nil, get?_insert, ih, List.reverse_concat, List.find?_cons]
    split_ifs with same
    · rw [same, beq_self_eq_true]
      rfl
    · rw [beq_false_of_ne (Ne.symm same)]

lemma get?_ofList {l : List (String × α)} (distinct : (l.map (·.1)).Nodup) (k : String) :
    (ofList l).get? k = l.lookup k := by
  rw [ofList, get?_foldl_insert distinct, get?_empty]
  simp

/-- A map is made of its entries. -/
theorem ofList_entries (m : SortedMap α) : ofList m.entries = m :=
  ext_get? fun k => get?_ofList m.nodup_keys k

/-- In which order entries are inserted does not matter if their keys are distinct. -/
lemma ofList_eq_of_perm {l m : List (String × α)} (distinct : (l.map (·.1)).Nodup)
    (moved : l.Perm m) : ofList l = ofList m := by
  have distinct' : (m.map (·.1)).Nodup := (moved.map _).nodup_iff.1 distinct
  refine ext_get?_iff.2 fun k v => ?_
  rw [get?_ofList distinct, get?_ofList distinct', lookup_eq_some_iff distinct,
    lookup_eq_some_iff distinct', moved.mem_iff]

lemma mapValues_ofList {β : Type} (f : α → β) (l : List (String × α)) :
    (ofList l).mapValues f = ofList (l.map fun p => (p.1, f p.2)) := by
  have insert : ∀ (m : SortedMap α), (l.foldl (fun m (k, v) => m.insert k v) m).mapValues f =
      (l.map fun p => (p.1, f p.2)).foldl (fun m (k, v) => m.insert k v) (m.mapValues f) := by
    induction l with
    | nil => exact fun m => rfl
    | cons p l ih =>
      intro m
      rw [List.foldl_cons, ih, mapValues_insert]
      rfl
  exact insert empty

end ApiCanon.SortedMap

namespace ApiCanon

/-- Sorting the names of a list neither loses one nor adds one. -/
theorem mem_sortedNames (l : List String) (k : String) : k ∈ sortedNames l ↔ k ∈ l := by
  rw [sortedNames, SortedMap.mem_keys_ofList, List.map_map]
  simp

lemma pairwise_sortedNames (l : List String) : (sortedNames l).Pairwise (· < ·) :=
  List.pairwise_map.2 (SortedMap.ascending _)

lemma nodup_sortedNames (l : List String) : (sortedNames l).Nodup :=
  SortedMap.nodup_keys _

/-- The sorted names of a list depend on its members only. -/
lemma sortedNames_congr {l m : List String} (h : ∀ k, k ∈ l ↔ k ∈ m) :
    sortedNames l = sortedNames m := by
  have perm : (sortedNames l).Perm (sortedNames m) := by
    refine (List.perm_ext_iff_of_nodup (nodup_sortedNames l) (nodup_sortedNames m)).2 fun k => ?_
    rw [mem_sortedNames, mem_sortedNames, h]
  refine perm.eq_of_pairwise ?_ (pairwise_sortedNames l) (pairwise_sortedNames m)
  intro a b _ _ hab hba
  exact absurd hba (String.lt_asymm hab)

end ApiCanon
