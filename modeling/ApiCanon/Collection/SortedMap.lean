/-!
# Maps sorted by key

A finite map from texts, as the list of its entries in strictly ascending order of the keys (by
code points).  The order is part of the type, so two maps with the same entries are equal.

Main statements: looking up what was inserted, and looking up another key.
-/

namespace ApiCanon

/-- Whether the keys of a list of entries ascend strictly. -/
def Ascending {α : Type} (l : List (String × α)) : Prop := l.Pairwise fun a b => a.1 < b.1

/-- A finite map with its entries in ascending order of the keys. -/
structure SortedMap (α : Type) where
  entries : List (String × α)
  ascending : Ascending entries

namespace SortedMap

variable {α : Type}

theorem ext_entries {m n : SortedMap α} (h : m.entries = n.entries) : m = n := by
  cases m; cases n; subst h; rfl

instance [DecidableEq α] : DecidableEq (SortedMap α) := fun m n =>
  if h : m.entries = n.entries then isTrue (ext_entries h)
  else isFalse fun e => h (congrArg entries e)

def empty : SortedMap α := ⟨[], List.Pairwise.nil⟩

instance : Inhabited (SortedMap α) := ⟨empty⟩

instance [Repr α] : Repr (SortedMap α) := ⟨fun m n => reprPrec m.entries n⟩

/-! ## Insertion -/

/-- Puts an entry at its place, over an entry of the same key. -/
def insertEntry (k : String) (v : α) : List (String × α) → List (String × α)
  | [] => [(k, v)]
  | (k', v') :: r =>
    if k < k' then (k, v) :: (k', v') :: r
    else if k = k' then (k, v) :: r
    else (k', v') :: insertEntry k v r

theorem mem_insertEntry {k : String} {v : α} {l : List (String × α)} {p : String × α}
    (h : p ∈ insertEntry k v l) : p = (k, v) ∨ p ∈ l := by
  induction l with
  | nil => simpa [insertEntry] using h
  | cons q r ih =>
    obtain ⟨k', v'⟩ := q
    simp only [insertEntry] at h
    split at h
    · simpa using h
    · split at h
      · rcases List.mem_cons.1 h with h | h
        · exact Or.inl h
        · exact Or.inr (List.mem_cons_of_mem _ h)
      · rcases List.mem_cons.1 h with h | h
        · exact Or.inr (h ▸ List.mem_cons_self)
        · rcases ih h with h | h
          · exact Or.inl h
          · exact Or.inr (List.mem_cons_of_mem _ h)

theorem lt_of_not_lt_of_ne {a b : String} (h : ¬a < b) (h' : a ≠ b) : b < a :=
  Decidable.byContradiction fun hb =>
    h' (String.le_antisymm (String.not_lt.1 hb) (String.not_lt.1 h))

theorem ascending_insertEntry {k : String} {v : α} {l : List (String × α)} (h : Ascending l) :
    Ascending (insertEntry k v l) := by
  induction l with
  | nil => exact List.pairwise_singleton _ _
  | cons q r ih =>
    obtain ⟨k', v'⟩ := q
    obtain ⟨hq, hr⟩ := List.pairwise_cons.1 h
    simp only [insertEntry]
    split
    · next hk =>
      refine List.pairwise_cons.2 ⟨fun p hp => ?_, h⟩
      rcases List.mem_cons.1 hp with rfl | hp
      · exact hk
      · exact String.lt_trans hk (hq p hp)
    · split
      · next hk => subst hk; exact List.pairwise_cons.2 ⟨hq, hr⟩
      · next hlt hne =>
        refine List.pairwise_cons.2 ⟨fun p hp => ?_, ih hr⟩
        rcases mem_insertEntry hp with rfl | hp
        · exact lt_of_not_lt_of_ne hlt hne
        · exact hq p hp

/-- The map with an entry more, or with another value at a key it has. -/
def insert (m : SortedMap α) (k : String) (v : α) : SortedMap α :=
  ⟨insertEntry k v m.entries, ascending_insertEntry m.ascending⟩

/-- The entries inserted one after another. -/
def ofList (l : List (String × α)) : SortedMap α := l.foldl (fun m (k, v) => m.insert k v) empty

/-! ## Look-up -/

/-- The value of a key. -/
def get? (m : SortedMap α) (k : String) : Option α := m.entries.lookup k

def contains (m : SortedMap α) (k : String) : Bool := (m.get? k).isSome

def keys (m : SortedMap α) : List String := m.entries.map (·.1)

def values (m : SortedMap α) : List α := m.entries.map (·.2)

def isEmpty (m : SortedMap α) : Bool := m.entries.isEmpty

@[simp] theorem get?_empty (k : String) : (empty : SortedMap α).get? k = none := rfl

theorem lookup_insertEntry_self (k : String) (v : α) (l : List (String × α)) :
    (insertEntry k v l).lookup k = some v := by
  induction l with
  | nil => simp [insertEntry]
  | cons q r ih =>
    obtain ⟨k', v'⟩ := q
    simp only [insertEntry]
    split
    · simp
    · split
      · simp
      · next hne =>
        have : (k == k') = false := by simpa using hne
        simp [List.lookup_cons, this, ih]

theorem lookup_insertEntry_of_ne {k l : String} (h : l ≠ k) (v : α) (e : List (String × α)) :
    (insertEntry k v e).lookup l = e.lookup l := by
  have hlk : (l == k) = false := by simpa using h
  induction e with
  | nil => simp [insertEntry, List.lookup_cons, hlk]
  | cons q r ih =>
    obtain ⟨k', v'⟩ := q
    simp only [insertEntry]
    split
    · simp [List.lookup_cons, hlk]
    · split
      · next hk => subst hk; simp [List.lookup_cons, hlk]
      · simp only [List.lookup_cons]
        split
        · rfl
        · exact ih

@[simp] theorem get?_insert_self (m : SortedMap α) (k : String) (v : α) :
    (m.insert k v).get? k = some v :=
  lookup_insertEntry_self k v m.entries

theorem get?_insert_of_ne (m : SortedMap α) {k l : String} (h : l ≠ k) (v : α) :
    (m.insert k v).get? l = m.get? l :=
  lookup_insertEntry_of_ne h v m.entries

/-! ## Removal -/

/-- The entries with a property. -/
def filter (m : SortedMap α) (p : String → α → Bool) : SortedMap α :=
  ⟨m.entries.filter fun e => p e.1 e.2, m.ascending.filter _⟩

/-- The map without a key. -/
def erase (m : SortedMap α) (k : String) : SortedMap α := m.filter fun l _ => l != k

def size (m : SortedMap α) : Nat := m.entries.length

@[simp] theorem size_empty : (empty : SortedMap α).size = 0 := rfl

@[simp] theorem get?_erase_self (m : SortedMap α) (k : String) : (m.erase k).get? k = none := by
  simp [erase, filter, get?, List.lookup_eq_none_iff]
  intro a b _ h e
  exact h e.symm

theorem lookup_filter_ne {k l : String} (h : l ≠ k) (e : List (String × α)) :
    (e.filter fun p => p.1 != k).lookup l = e.lookup l := by
  induction e with
  | nil => rfl
  | cons p r ih =>
    obtain ⟨k', v⟩ := p
    by_cases hk : k' = k
    · subst hk
      have hl : (l == k') = false := by simpa using h
      rw [List.filter_cons_of_neg (by simp), ih, List.lookup_cons, hl]
    · rw [List.filter_cons_of_pos (by simpa using hk), List.lookup_cons, List.lookup_cons, ih]

theorem get?_erase_of_ne (m : SortedMap α) {k l : String} (h : l ≠ k) :
    (m.erase k).get? l = m.get? l :=
  lookup_filter_ne h m.entries

end SortedMap

/-- The distinct texts of a list in ascending order. -/
def sortedNames (l : List String) : List String :=
  (SortedMap.ofList (l.map fun s => (s, ()))).keys

end ApiCanon
