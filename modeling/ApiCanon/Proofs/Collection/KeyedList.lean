import Mathlib.Data.List.Forall2
import Mathlib.Data.List.Induction
import Mathlib.Data.List.Nodup
import Mathlib.Data.List.Perm.Basic
import Mathlib.Tactic.Choose
import Mathlib.Tactic.Tauto

/-!
# Lists with distinct keys

In a list whose members have distinct keys a key stands for its member.  Such a list is searched
by key, and two of them are the same up to order as soon as each covers the other.

From a list with repeated keys such a list is made by keeping the first member of each key
(`firstsBy`); the other members are later ones (`latersBy`).  It is also made by keeping the last
member of each key (`lastsBy`).
-/

namespace ApiCanon

variable {α κ : Type} {key : α → κ}

/-- The first member with a key is the only one. -/
lemma find?_key_eq_some [BEq κ] [LawfulBEq κ] {l : List α} (distinct : (l.map key).Nodup)
    {a : α} (h : a ∈ l) : l.find? (fun b => key b == key a) = some a := by
  cases hfind : l.find? (fun b => key b == key a) with
  | none => simpa using List.find?_eq_none.1 hfind a h
  | some b =>
    have hkey : key b = key a := by simpa using List.find?_some hfind
    rw [List.inj_on_of_nodup_map distinct (List.mem_of_find?_eq_some hfind) h hkey]

/-- A member with a new key stands in front of members whose keys are new beside it. -/
lemma nodup_fresh_cons_iff {a : α} {l : List α} {seen : List κ} :
    ((a :: l).map key).Nodup ∧ (∀ b ∈ a :: l, key b ∉ seen) ↔
      key a ∉ seen ∧ (l.map key).Nodup ∧ ∀ b ∈ l, key b ∉ key a :: seen := by
  rw [List.forall_mem_cons, List.map_cons, List.nodup_cons]
  simp only [List.mem_map, List.mem_cons, not_or, not_exists, not_and]
  constructor
  · rintro ⟨⟨single, distinct⟩, known, fresh⟩
    exact ⟨known, distinct, fun b hb => ⟨single b hb, fresh b hb⟩⟩
  · rintro ⟨known, distinct, fresh⟩
    exact ⟨⟨fun b hb => (fresh b hb).1, distinct⟩, known, fun b hb => (fresh b hb).2⟩

/-- Two lists agree member by member once the first is put into another order. -/
def SameUpToOrder (R : α → α → Prop) (l m : List α) : Prop :=
  ∃ l', l'.Perm l ∧ List.Forall₂ R l' m

lemma exists_of_mem_left {β : Type} {R : α → β → Prop} {l : List α} {m : List β}
    (h : List.Forall₂ R l m) {a : α} (ha : a ∈ l) : ∃ b ∈ m, R a b := by
  induction h with
  | nil => simp at ha
  | cons hab _ ih =>
    rcases List.mem_cons.1 ha with rfl | ha
    · exact ⟨_, List.mem_cons_self, hab⟩
    · obtain ⟨b, hb, hr⟩ := ih ha
      exact ⟨b, List.mem_cons_of_mem _ hb, hr⟩

/-- For a relation that preserves keys, agreement up to order is agreement key by key. -/
theorem sameUpToOrder_iff [Nonempty α] {R : α → α → Prop} (hkey : ∀ a b, R a b → key a = key b)
    {l m : List α} (distinctLeft : (l.map key).Nodup) (distinctRight : (m.map key).Nodup) :
    SameUpToOrder R l m ↔ (∀ a ∈ l, ∃ b ∈ m, R a b) ∧ ∀ b ∈ m, key b ∈ l.map key := by
  constructor
  · rintro ⟨l', perm, agree⟩
    refine ⟨fun a ha => exists_of_mem_left agree (perm.mem_iff.2 ha), fun b hb => ?_⟩
    obtain ⟨a, ha, hr⟩ := exists_of_mem_left agree.flip hb
    exact List.mem_map.2 ⟨a, perm.mem_iff.1 ha, hkey a b hr⟩
  · rintro ⟨cover, known⟩
    have back : ∀ b ∈ m, ∃ a ∈ l, R a b := by
      intro b hb
      obtain ⟨a, ha, hab⟩ := List.mem_map.1 (known b hb)
      obtain ⟨b', hb', hr⟩ := cover a ha
      have : b' = b := List.inj_on_of_nodup_map distinctRight hb' hb ((hkey a b' hr).symm.trans hab)
      exact ⟨a, ha, this ▸ hr⟩
    choose! f hf using back
    have keys : (m.map f).map key = m.map key := by
      rw [List.map_map]
      exact List.map_congr_left fun b hb => hkey _ _ (hf b hb).2
    have distinct : (m.map f).Nodup := (keys ▸ distinctRight : ((m.map f).map key).Nodup).of_map
    refine ⟨m.map f, (List.perm_ext_iff_of_nodup distinct distinctLeft.of_map).2 fun a => ?_, ?_⟩
    · constructor
      · intro ha
        obtain ⟨b, hb, rfl⟩ := List.mem_map.1 ha
        exact (hf b hb).1
      · intro ha
        obtain ⟨b, hb, hr⟩ := cover a ha
        have : f b = a := List.inj_on_of_nodup_map distinctLeft (hf b hb).1 ha
          ((hkey _ _ (hf b hb).2).trans (hkey a b hr).symm)
        exact List.mem_map.2 ⟨b, hb, this⟩
    · rw [List.forall₂_map_left_iff, List.forall₂_same]
      exact fun b hb => (hf b hb).2

/-! ## First members -/

/-- The members whose key no member before them has, in order. -/
def firstsBy [BEq κ] (key : α → κ) (l : List α) : List α :=
  l.eraseDupsBy fun a b => key a == key b

section FirstsBy

variable [DecidableEq κ] (key : α → κ)

lemma firstsBy_cons (a : α) (l : List α) :
    firstsBy key (a :: l) = a :: firstsBy key (l.filter fun b => key b ≠ key a) := by
  simp only [firstsBy, List.eraseDupsBy_cons, beq_eq_false_iff_ne]

/-- A member at the end is one of the first if its key is new. -/
theorem firstsBy_concat (l : List α) (a : α) :
    firstsBy key (l ++ [a]) = firstsBy key l ++ if key a ∈ l.map key then [] else [a] := by
  generalize length : l.length = n
  induction n using Nat.strongRecOn generalizing l with
  | ind n ih =>
    cases l with
    | nil => rfl
    | cons b l =>
      rw [List.cons_append, firstsBy_cons, firstsBy_cons, List.filter_append]
      by_cases same : key a = key b
      · simp [same]
      · have shorter := List.length_filter_le (fun c => decide (key c ≠ key b)) l
        have known : key a ∈ (l.filter fun c => key c ≠ key b).map key ↔ key a ∈ l.map key := by
          simp only [List.mem_map, List.mem_filter, decide_eq_true_eq]
          constructor
          · rintro ⟨c, ⟨hc, -⟩, here⟩
            exact ⟨c, hc, here⟩
          · rintro ⟨c, hc, here⟩
            exact ⟨c, ⟨hc, here ▸ same⟩, here⟩
        rw [List.filter_singleton, decide_eq_true same, cond_true,
          ih _ (by rw [← length, List.length_cons]; omega) _ rfl, List.cons_append]
        simp only [known, List.map_cons, List.mem_cons, same, false_or]

/-- Every key has a first member. -/
lemma mem_map_firstsBy_iff (l : List α) (k : κ) : k ∈ (firstsBy key l).map key ↔ k ∈ l.map key := by
  induction l using List.reverseRecOn with
  | nil => rfl
  | append_singleton l a ih =>
    rw [firstsBy_concat, List.map_append, List.map_append, List.mem_append, List.mem_append, ih]
    split_ifs with known
    · simp only [List.map_nil, List.not_mem_nil, or_false, List.map_singleton, List.mem_singleton]
      exact ⟨Or.inl, fun h => h.elim id fun same => same ▸ known⟩
    · rfl

/-- First members have distinct keys. -/
lemma nodup_map_firstsBy (l : List α) : ((firstsBy key l).map key).Nodup := by
  induction l using List.reverseRecOn with
  | nil => exact List.nodup_nil
  | append_singleton l a ih =>
    rw [firstsBy_concat]
    split_ifs with known
    · rwa [List.append_nil]
    · rw [List.map_append, List.map_singleton]
      refine List.nodup_append.2 ⟨ih, List.nodup_singleton _, fun k hk l hl same => known ?_⟩
      rw [← List.mem_singleton.1 hl, ← same]
      exact (mem_map_firstsBy_iff key _ k).1 hk

lemma firstsBy_subset (l : List α) : firstsBy key l ⊆ l := by
  induction l using List.reverseRecOn with
  | nil => exact List.Subset.refl _
  | append_singleton l a ih =>
    rw [firstsBy_concat]
    intro b hb
    rcases List.mem_append.1 hb with hb | hb
    · exact List.mem_append_left _ (ih hb)
    · split_ifs at hb
      · cases hb
      · exact List.mem_append_right _ hb

lemma firstsBy_map {β : Type} (g : β → α) (l : List β) :
    firstsBy key (l.map g) = (firstsBy (fun b => key (g b)) l).map g := by
  induction l using List.reverseRecOn with
  | nil => rfl
  | append_singleton l b ih =>
    rw [List.map_append, List.map_singleton, firstsBy_concat, firstsBy_concat, ih, List.map_append,
      List.map_map, Function.comp_def, apply_ite (List.map g), List.map_nil, List.map_singleton]

/-- The first member of a key is found in either list. -/
lemma find?_firstsBy (l : List α) (k : κ) :
    (firstsBy key l).find? (fun a => key a == k) = l.find? fun a => key a == k := by
  induction l using List.reverseRecOn with
  | nil => rfl
  | append_singleton l a ih =>
    rw [firstsBy_concat, List.find?_append, List.find?_append, ih]
    split_ifs with known
    · obtain ⟨b, hb, same⟩ := List.mem_map.1 known
      by_cases here : key a = k
      · have found : (l.find? fun a => key a == k).isSome :=
          List.find?_isSome.2 ⟨b, hb, beq_iff_eq.2 (same.trans here)⟩
        rw [Option.or_of_isSome found, Option.or_of_isSome found]
      · rw [List.find?_singleton, beq_false_of_ne here]
        rfl
    · rfl

/-- The members of a list, each once, stand in the order in which they occur first. -/
lemma pairwise_idxOf_firstsBy (l : List κ) :
    (firstsBy id l).Pairwise fun k m => l.idxOf k < l.idxOf m := by
  induction l using List.reverseRecOn with
  | nil => exact List.Pairwise.nil
  | append_singleton l k ih =>
    have before : (firstsBy id l).Pairwise fun m n => (l ++ [k]).idxOf m < (l ++ [k]).idxOf n := by
      refine ih.imp_of_mem fun {m n} hm hn less => ?_
      rwa [List.idxOf_append_of_mem (firstsBy_subset id l hm),
        List.idxOf_append_of_mem (firstsBy_subset id l hn)]
    rw [firstsBy_concat, List.map_id]
    split_ifs with known
    · rwa [List.append_nil]
    · refine List.pairwise_append.2 ⟨before, List.pairwise_singleton _ _, fun m hm n hn => ?_⟩
      have hm := firstsBy_subset id l hm
      have fresh : k ∉ l := known
      rw [List.mem_singleton.1 hn, List.idxOf_append_of_mem hm, List.idxOf_append_of_notMem fresh]
      exact Nat.lt_add_right _ (List.idxOf_lt_length_of_mem hm)

/-- The members whose key is given, or is that of a member before them, in order. -/
def latersFrom (key : α → κ) (seen : List κ) : List α → List α
  | [] => []
  | a :: l =>
    if key a ∈ seen then a :: latersFrom key seen l else latersFrom key (key a :: seen) l

/-- The members whose key a member before them has, in order. -/
def latersBy (key : α → κ) (l : List α) : List α := latersFrom key [] l

lemma latersFrom_concat (seen : List κ) (l : List α) (a : α) :
    latersFrom key seen (l ++ [a]) =
      latersFrom key seen l ++ if key a ∈ seen ∨ key a ∈ l.map key then [a] else [] := by
  induction l generalizing seen with
  | nil => simp [latersFrom]
  | cons b l ih =>
    rw [List.cons_append, latersFrom, latersFrom, ih, ih]
    by_cases known : key b ∈ seen
    · have same : (key a ∈ seen ∨ key a ∈ (b :: l).map key) ↔ key a ∈ seen ∨ key a ∈ l.map key := by
        rw [List.map_cons, List.mem_cons]
        constructor
        · rintro (before | here | behind)
          exacts [.inl before, .inl (here ▸ known), .inr behind]
        · exact Or.imp_right .inr
      simp only [known, if_true, same, List.cons_append]
    · have same : (key a ∈ key b :: seen ∨ key a ∈ l.map key) ↔
          key a ∈ seen ∨ key a ∈ (b :: l).map key := by
        rw [List.map_cons, List.mem_cons, List.mem_cons]
        tauto
      simp only [known, if_false, same]

/-- A member at the end is a later one if its key is not new. -/
theorem latersBy_concat (l : List α) (a : α) :
    latersBy key (l ++ [a]) = latersBy key l ++ if key a ∈ l.map key then [a] else [] := by
  rw [latersBy, latersFrom_concat]
  simp only [List.not_mem_nil, false_or, latersBy]

/-- Every member is the first one of its key or a later one. -/
lemma length_firstsBy_add (l : List α) :
    (firstsBy key l).length + (latersBy key l).length = l.length := by
  induction l using List.reverseRecOn with
  | nil => rfl
  | append_singleton l a ih =>
    rw [firstsBy_concat, latersBy_concat]
    simp only [List.length_append]
    split_ifs <;> simp only [List.length_nil, List.length_singleton] <;> omega

/-- Members are left out by their keys before or after the first ones are taken. -/
lemma firstsBy_filter (p : κ → Bool) (l : List α) :
    firstsBy key (l.filter fun a => p (key a)) = (firstsBy key l).filter fun a => p (key a) := by
  induction l using List.reverseRecOn with
  | nil => rfl
  | append_singleton l a ih =>
    rw [List.filter_append, firstsBy_concat, List.filter_append, List.filter_singleton, ← ih]
    cases kept : p (key a) with
    | false =>
      rw [cond_false, List.append_nil]
      split_ifs <;> simp [kept]
    | true =>
      have known : key a ∈ (l.filter fun b => p (key b)).map key ↔ key a ∈ l.map key := by
        simp only [List.mem_map, List.mem_filter]
        constructor
        · rintro ⟨b, ⟨hb, -⟩, same⟩
          exact ⟨b, hb, same⟩
        · rintro ⟨b, hb, same⟩
          exact ⟨b, ⟨hb, same ▸ kept⟩, same⟩
      rw [cond_true, firstsBy_concat]
      simp only [known]
      split_ifs <;> simp [kept]

end FirstsBy

/-! ## Last members -/

/-- The members whose key no member behind them has, in order. -/
def lastsBy [DecidableEq κ] (key : α → κ) (l : List α) : List α := (firstsBy key l.reverse).reverse

section LastsBy

variable [DecidableEq κ] (key : α → κ)

/-- A member at the end takes the place of the one of its key. -/
theorem lastsBy_concat (l : List α) (a : α) :
    lastsBy key (l ++ [a]) = ((lastsBy key l).filter fun b => key b ≠ key a) ++ [a] := by
  have others := firstsBy_filter key (fun k => decide (k ≠ key a)) l.reverse
  rw [lastsBy, List.reverse_concat, firstsBy_cons, others, List.reverse_cons, ← List.filter_reverse,
    lastsBy]

/-- The last members of their keys are those that no member of their key follows. -/
theorem mem_lastsBy_iff (l : List α) (a : α) : a ∈ lastsBy key l ↔
    ∃ before after, l = before ++ a :: after ∧ ∀ b ∈ after, key b ≠ key a := by
  induction l using List.reverseRecOn with
  | nil => simp [lastsBy, firstsBy]
  | append_singleton l c ih =>
    rw [lastsBy_concat, List.mem_append, List.mem_filter, ih, decide_eq_true_eq, List.mem_singleton]
    constructor
    · rintro (⟨⟨before, after, rfl, last⟩, other⟩ | rfl)
      · refine ⟨before, after ++ [c], by rw [List.append_assoc, List.cons_append], fun b hb => ?_⟩
        rcases List.mem_append.1 hb with hb | hb
        · exact last b hb
        · exact List.mem_singleton.1 hb ▸ Ne.symm other
      · exact ⟨l, [], rfl, nofun⟩
    · rintro ⟨before, after, whole, last⟩
      rcases List.eq_nil_or_concat' after with rfl | ⟨after, d, rfl⟩
      · exact .inr (List.cons.inj (List.append_inj' whole rfl).2).1.symm
      · refine .inl ?_
        rw [← List.cons_append, ← List.append_assoc] at whole
        obtain ⟨rfl, same⟩ := List.append_inj' whole rfl
        obtain rfl := (List.cons.inj same).1
        exact ⟨⟨before, after, rfl, fun b hb => last b (List.mem_append_left _ hb)⟩,
          Ne.symm (last c (by simp))⟩

/-- Every key has a last member. -/
lemma mem_map_lastsBy_iff (l : List α) (k : κ) : k ∈ (lastsBy key l).map key ↔ k ∈ l.map key := by
  rw [lastsBy, List.map_reverse, List.mem_reverse, mem_map_firstsBy_iff, List.map_reverse,
    List.mem_reverse]

/-- Last members have distinct keys. -/
lemma nodup_map_lastsBy (l : List α) : ((lastsBy key l).map key).Nodup := by
  rw [lastsBy, List.map_reverse, List.nodup_reverse]
  exact nodup_map_firstsBy key l.reverse

lemma lastsBy_subset (l : List α) : lastsBy key l ⊆ l := fun a ha => by
  obtain ⟨before, after, rfl, -⟩ := (mem_lastsBy_iff key l a).1 ha
  simp

/-- Members are left out by their keys before or after the last ones are taken. -/
lemma lastsBy_filter (p : κ → Bool) (l : List α) :
    lastsBy key (l.filter fun a => p (key a)) = (lastsBy key l).filter fun a => p (key a) := by
  rw [lastsBy, ← List.filter_reverse, firstsBy_filter, ← List.filter_reverse, lastsBy]

/-- The last member of a key is found among the last ones. -/
lemma find?_lastsBy (l : List α) (k : κ) :
    (lastsBy key l).find? (fun a => key a = k) = l.reverse.find? fun a => key a = k := by
  induction l using List.reverseRecOn with
  | nil => rfl
  | append_singleton l a ih =>
    rw [lastsBy_concat, List.find?_append, List.find?_filter, List.find?_singleton,
      List.reverse_concat, List.find?_cons]
    by_cases here : key a = k
    · have gone : (lastsBy key l).find?
          (fun b => decide (decide (key b ≠ key a) = true ∧ decide (key b = k) = true)) = none :=
        List.find?_eq_none.2 fun b _ => by simp [here]
      rw [gone, decide_eq_true here, if_pos rfl]
      rfl
    · rw [decide_eq_false here, ← ih, if_neg Bool.false_ne_true, Option.or_none]
      congr 1
      funext b
      by_cases same : key b = k
      · simp [same, Ne.symm here]
      · simp [same]

end LastsBy

end ApiCanon
