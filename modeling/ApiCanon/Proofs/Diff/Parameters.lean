import ApiCanon.Diff.Endpoints
import ApiCanon.Proofs.Diff.Differences
import Mathlib.Data.List.Nodup
import Mathlib.Data.List.Perm.Basic
import Mathlib.Tactic.Lemma

/-!
# Matching of parameters

A parameter stands at a *slot*: its name and its place.  The search for counterparts runs over
positions in a list and keeps the positions that are taken; here its outcome is described by
slots.  `compareParameters` is silent exactly on lists that are permutations of each other
(`compareParameters_eq_nil_iff_perm`), breaks exactly when a slot is lost, tightened, retyped or
newly demanded (`hasBreaking_compareParameters_iff`), and compares a list with itself silently
exactly when its slots are distinct (`compareParameters_self_eq_nil_iff`).

Positions that a moved parameter has taken are left out of the search for moved parameters, but
not of the search for exact matches.  No statement here depends on which of several candidates a
moved parameter is given.
-/

namespace ApiCanon

/-- The name and the place of a parameter. -/
def Parameter.slot (p : Parameter) : String × Location := (p.name, p.location)

namespace Diff

/-! ## Counterparts -/

lemma slot_eq_iff (p q : Parameter) :
    (q.name == p.name && q.location == p.location) = true ↔ q.slot = p.slot := by
  simp [Parameter.slot]

/-- The exact match is the first parameter at the slot. -/
lemma exactMatch?_eq_some_iff (new : List Parameter) (p : Parameter) (i : Nat) :
    exactMatch? new p = some i ↔
      ∃ q, new[i]? = some q ∧ q.slot = p.slot ∧
        ∀ j < i, ∀ q', new[j]? = some q' → q'.slot ≠ p.slot := by
  simp only [exactMatch?, List.findIdx?_eq_some_iff_getElem, slot_eq_iff]
  constructor
  · rintro ⟨hi, hslot, first⟩
    refine ⟨new[i], List.getElem?_eq_getElem hi, hslot, fun j hj q' hq' => ?_⟩
    have hlt : j < new.length := Nat.lt_trans hj hi
    obtain rfl : new[j] = q' := by simpa [List.getElem?_eq_getElem hlt] using hq'
    exact first j hj
  · rintro ⟨q, hq, hslot, first⟩
    obtain ⟨hi, rfl⟩ := List.getElem?_eq_some_iff.1 hq
    exact ⟨hi, hslot, fun j hj => first j hj _ (List.getElem?_eq_getElem (Nat.lt_trans hj hi))⟩

lemma exactMatch?_eq_none_iff (new : List Parameter) (p : Parameter) :
    exactMatch? new p = none ↔ p.slot ∉ new.map Parameter.slot := by
  simp only [exactMatch?, List.findIdx?_eq_none_iff, List.mem_map, not_exists, not_and]
  refine forall₂_congr fun q _ => ?_
  rw [← slot_eq_iff, Bool.not_eq_true]

/-- What a moved match can be: of the same name, and elsewhere. -/
lemma movedMatch?_spec {new : List Parameter} {taken : List Nat} {p : Parameter} {i : Nat}
    (h : movedMatch? new taken p = some i) :
    ∃ q, new[i]? = some q ∧ q.name = p.name ∧ q.location ≠ p.location := by
  have hi := List.find?_some h
  cases hq : new[i]? with
  | none => simp [hq] at hi
  | some q =>
    simp only [hq, Bool.and_eq_true, beq_iff_eq, bne_iff_ne, ne_eq] at hi
    exact ⟨q, rfl, hi.1.1, hi.1.2⟩

/-- A parameter whose slot is there goes with the exact match. -/
lemma counterpart?_of_exactMatch? {new : List Parameter} {p : Parameter} {i : Nat}
    (h : exactMatch? new p = some i) (taken : List Nat) : counterpart? new taken p = some i := by
  simp [counterpart?, h]

/-- A parameter whose slot is gone goes with a parameter of another slot, or with none. -/
lemma counterpart?_of_slot_gone {new : List Parameter} {taken : List Nat} {p : Parameter}
    {i : Nat} (gone : p.slot ∉ new.map Parameter.slot) (h : counterpart? new taken p = some i) :
    ∃ q, new[i]? = some q ∧ q.name = p.name ∧ q.location ≠ p.location := by
  rw [counterpart?, (exactMatch?_eq_none_iff new p).2 gone] at h
  exact movedMatch?_spec (by simpa using h)

/-! ## Pairs -/

lemma mem_pairParameters {new : List Parameter} {taken : List Nat} {old : List Parameter}
    {pc : Parameter × Option Nat} (h : pc ∈ pairParameters new taken old) :
    pc.1 ∈ old ∧ ∃ taken', pc.2 = counterpart? new taken' pc.1 := by
  induction old generalizing taken with
  | nil => simp [pairParameters] at h
  | cons p r ih =>
    simp only [pairParameters] at h
    split at h
    all_goals
      next hc =>
      rcases List.mem_cons.1 h with rfl | h
      · exact ⟨List.mem_cons_self, taken, hc.symm⟩
      · obtain ⟨hmem, hc'⟩ := ih h
        exact ⟨List.mem_cons_of_mem _ hmem, hc'⟩

lemma exists_pair (new : List Parameter) (taken : List Nat) {old : List Parameter}
    {p : Parameter} (h : p ∈ old) : ∃ c, (p, c) ∈ pairParameters new taken old := by
  induction old generalizing taken with
  | nil => simp at h
  | cons q r ih =>
    simp only [pairParameters]
    rcases List.mem_cons.1 h with rfl | h
    · split
      · exact ⟨_, List.mem_cons_self⟩
      · exact ⟨_, List.mem_cons_self⟩
    · split
      · next i _ =>
        obtain ⟨c, hc⟩ := ih (i :: taken) h
        exact ⟨c, List.mem_cons_of_mem _ hc⟩
      · obtain ⟨c, hc⟩ := ih taken h
        exact ⟨c, List.mem_cons_of_mem _ hc⟩

/-- The positions that some old parameter has been given. -/
def takenBy (new old : List Parameter) : List Nat :=
  (pairParameters new [] old).filterMap (·.2)

/-- The exact match of an old parameter is taken. -/
lemma mem_takenBy_of_exactMatch? {new old : List Parameter} {p : Parameter} {i : Nat}
    (hp : p ∈ old) (h : exactMatch? new p = some i) : i ∈ takenBy new old := by
  obtain ⟨c, hc⟩ := exists_pair new [] hp
  obtain ⟨-, taken', hc'⟩ := mem_pairParameters hc
  rw [counterpart?_of_exactMatch? h] at hc'
  exact List.mem_filterMap.2 ⟨_, hc, hc'⟩

/-- A position is taken by an exact match, or by a parameter whose slot is gone. -/
lemma of_mem_takenBy {new old : List Parameter} {i : Nat} (h : i ∈ takenBy new old) :
    ∃ p ∈ old, exactMatch? new p = some i ∨ p.slot ∉ new.map Parameter.slot := by
  obtain ⟨⟨p, c⟩, hpc, hc⟩ := List.mem_filterMap.1 h
  obtain ⟨hp, taken', hc'⟩ := mem_pairParameters hpc
  refine ⟨p, hp, ?_⟩
  cases hexact : exactMatch? new p with
  | none => exact Or.inr ((exactMatch?_eq_none_iff new p).1 hexact)
  | some j =>
    have hji : some i = some j := by
      rw [← hc, hc', counterpart?_of_exactMatch? hexact]
    exact Or.inl (by rw [hji])

lemma mem_untaken {taken : List Nat} {k : Nat} {l : List Parameter} {q : Parameter} :
    q ∈ untaken taken k l ↔ ∃ i, l[i]? = some q ∧ k + i ∉ taken := by
  induction l generalizing k with
  | nil => simp [untaken]
  | cons p r ih =>
    have shift : (∃ i, r[i]? = some q ∧ k + 1 + i ∉ taken) ↔
        ∃ i, (p :: r)[i + 1]? = some q ∧ k + (i + 1) ∉ taken := by
      simp only [List.getElem?_cons_succ, Nat.add_assoc, Nat.add_comm 1]
    have split : (∃ i, (p :: r)[i]? = some q ∧ k + i ∉ taken) ↔
        (p = q ∧ k ∉ taken) ∨ ∃ i, (p :: r)[i + 1]? = some q ∧ k + (i + 1) ∉ taken := by
      constructor
      · rintro ⟨_ | i, h⟩
        · exact Or.inl (by simpa using h)
        · exact Or.inr ⟨i, h⟩
      · rintro (h | ⟨i, h⟩)
        · exact ⟨0, by simpa using h⟩
        · exact ⟨i + 1, h⟩
    rw [split, ← shift, ← ih, untaken]
    by_cases hk : k ∈ taken
    · simp [hk]
    · simp [hk, eq_comm]

/-! ## Lists with distinct slots -/

/-- Where the slots are distinct, a slot has one position. -/
lemma exactMatch?_of_nodup {new : List Parameter} (distinct : (new.map Parameter.slot).Nodup)
    {p q : Parameter} {i : Nat} (hq : new[i]? = some q) (slot : q.slot = p.slot) :
    exactMatch? new p = some i := by
  refine (exactMatch?_eq_some_iff new p i).2 ⟨q, hq, slot, fun j hj q' hq' slot' => ?_⟩
  have hi : i < (new.map Parameter.slot).length := by
    simpa using (List.getElem?_eq_some_iff.1 hq).1
  refine List.nodup_iff_getElem?_ne_getElem?.1 distinct j i hj hi ?_
  simp [hq, hq', slot, slot']

lemma exactMatch?_get {new : List Parameter} {p : Parameter} {i : Nat}
    (h : exactMatch? new p = some i) : ∃ q, new[i]? = some q ∧ q.slot = p.slot := by
  obtain ⟨q, hq, slot, -⟩ := (exactMatch?_eq_some_iff new p i).1 h
  exact ⟨q, hq, slot⟩

/-! ## The differences of parameters -/

lemma mem_compareParameters {o : DiffOptions} {old new : List Parameter} {d : Difference} :
    d ∈ compareParameters o old new ↔
      (∃ pc ∈ pairParameters new [] old, d ∈ compareOldParameter o new pc) ∨
        ∃ i q, new[i]? = some q ∧ i ∉ takenBy new old ∧ d = addedParameter q := by
  simp only [compareParameters, List.mem_append, List.mem_flatMap, List.mem_map, mem_untaken,
    Nat.zero_add]
  refine or_congr Iff.rfl ?_
  constructor
  · rintro ⟨q, ⟨i, hq, hi⟩, rfl⟩
    exact ⟨i, q, hq, hi, rfl⟩
  · rintro ⟨i, q, hq, hi, rfl⟩
    exact ⟨q, ⟨i, hq, hi⟩, rfl⟩

lemma compareParameter_eq_nil_iff (o : DiffOptions) (p q : Parameter) :
    compareParameter o p q = [] ↔ p.location = q.location ∧ p.required = q.required ∧
      p.schema = q.schema ∧ (o.ignoreDescriptions = false → p.description = q.description) := by
  simp only [compareParameter, List.append_eq_nil_iff, reportIf_eq_nil_iff]
  cases p.required <;> cases q.required <;> cases o.ignoreDescriptions <;>
    simp [and_assoc]

lemma hasBreaking_compareParameter_iff (o : DiffOptions) (p q : Parameter) :
    HasBreaking (compareParameter o p q) ↔ p.location ≠ q.location ∨
      (p.required = false ∧ q.required = true) ∨ p.schema ≠ q.schema := by
  simp [compareParameter]

/-- A parameter that goes with one of another place counts as moved. -/
lemma hasBreaking_of_slot_gone {o : DiffOptions} {old new : List Parameter} {p : Parameter}
    (hp : p ∈ old) (gone : p.slot ∉ new.map Parameter.slot) :
    HasBreaking (compareParameters o old new) := by
  obtain ⟨c, hc⟩ := exists_pair new [] hp
  obtain ⟨-, taken', hc'⟩ := mem_pairParameters hc
  have here : HasBreaking (compareOldParameter o new (p, c)) := by
    cases c with
    | none => simp [compareOldParameter]
    | some i =>
      obtain ⟨q, hq, -, moved⟩ := counterpart?_of_slot_gone gone hc'.symm
      simp only [compareOldParameter, hq]
      exact (hasBreaking_compareParameter_iff o p q).2 (Or.inl moved.symm)
  obtain ⟨d, hd, breaking⟩ := here
  exact ⟨d, mem_compareParameters.2 (Or.inl ⟨_, hc, hd⟩), breaking⟩

/-- What is reported of a parameter whose slot is still there. -/
lemma compareOldParameter_of_exactMatch? {o : DiffOptions} {old new : List Parameter}
    {p q : Parameter} {i : Nat} (hp : p ∈ old) (h : exactMatch? new p = some i)
    (hq : new[i]? = some q) {d : Difference} (hd : d ∈ compareParameter o p q) :
    d ∈ compareParameters o old new := by
  obtain ⟨c, hc⟩ := exists_pair new [] hp
  obtain ⟨-, taken', hc'⟩ := mem_pairParameters hc
  rw [counterpart?_of_exactMatch? h] at hc'
  subst hc'
  exact mem_compareParameters.2 (Or.inl ⟨_, hc, by simpa [compareOldParameter, hq] using hd⟩)

/-- Where the slots are distinct, a parameter is compared with the new one of its slot. -/
lemma compareOldParameter_of_nodup {new : List Parameter}
    (distinct : (new.map Parameter.slot).Nodup) (o : DiffOptions) {old : List Parameter}
    {p q : Parameter} {c : Option Nat} (hpc : (p, c) ∈ pairParameters new [] old) {i : Nat}
    (hq : new[i]? = some q) (slot : q.slot = p.slot) :
    compareOldParameter o new (p, c) = compareParameter o p q := by
  obtain ⟨-, taken', hc⟩ := mem_pairParameters hpc
  rw [counterpart?_of_exactMatch? (exactMatch?_of_nodup distinct hq slot)] at hc
  obtain rfl : c = some i := hc
  simp only [compareOldParameter, hq]

/-- Silence, slot by slot: every old parameter agrees with the new one of its slot, and no slot is
new. -/
theorem compareParameters_eq_nil_iff {o : DiffOptions} {old new : List Parameter}
    (distinct : (new.map Parameter.slot).Nodup) :
    compareParameters o old new = [] ↔
      (∀ p ∈ old, ∃ q ∈ new, q.slot = p.slot ∧ compareParameter o p q = []) ∧
        ∀ q ∈ new, q.slot ∈ old.map Parameter.slot := by
  constructor
  · intro h
    have silent : ∀ d, d ∉ compareParameters o old new := by simp [h]
    have kept : ∀ p ∈ old, p.slot ∈ new.map Parameter.slot := by
      intro p hp
      by_contra gone
      obtain ⟨d, hd, -⟩ := hasBreaking_of_slot_gone hp gone (o := o)
      exact silent d hd
    refine ⟨fun p hp => ?_, fun q hq => ?_⟩
    · obtain ⟨i, hi⟩ : ∃ i, exactMatch? new p = some i :=
        Option.ne_none_iff_exists'.1 fun h0 => (exactMatch?_eq_none_iff new p).1 h0 (kept p hp)
      obtain ⟨q, hq, slot⟩ := exactMatch?_get hi
      refine ⟨q, List.mem_of_getElem? hq, slot, List.eq_nil_iff_forall_not_mem.2 fun d hd => ?_⟩
      exact silent d (compareOldParameter_of_exactMatch? hp hi hq hd)
    · obtain ⟨i, hi⟩ := List.mem_iff_getElem?.1 hq
      have htaken : i ∈ takenBy new old := by
        by_contra hfree
        exact silent _ (mem_compareParameters.2 (Or.inr ⟨i, q, hi, hfree, rfl⟩))
      obtain ⟨p, hp, hexact | gone⟩ := of_mem_takenBy htaken
      · obtain ⟨q', hq', slot⟩ := exactMatch?_get hexact
        obtain rfl : q = q' := Option.some.inj (hi.symm.trans hq')
        exact List.mem_map.2 ⟨p, hp, slot.symm⟩
      · exact absurd (kept p hp) gone
  · rintro ⟨agree, known⟩
    refine List.eq_nil_iff_forall_not_mem.2 fun d hd => ?_
    rcases mem_compareParameters.1 hd with ⟨⟨p, c⟩, hpc, hd⟩ | ⟨i, q, hq, hfree, -⟩
    · obtain ⟨q, hq, slot, silent⟩ := agree p (mem_pairParameters hpc).1
      obtain ⟨i, hi⟩ := List.mem_iff_getElem?.1 hq
      rw [compareOldParameter_of_nodup distinct o hpc hi slot, silent] at hd
      exact List.not_mem_nil hd
    · obtain ⟨p, hp, slot⟩ := List.mem_map.1 (known q (List.mem_of_getElem? hq))
      exact hfree (mem_takenBy_of_exactMatch? hp (exactMatch?_of_nodup distinct hq slot.symm))

lemma eq_of_compareParameter_eq_nil {o : DiffOptions} (full : o.ignoreDescriptions = false)
    {p q : Parameter} (slot : q.slot = p.slot) (h : compareParameter o p q = []) : p = q := by
  obtain ⟨location, required, schema, description⟩ := (compareParameter_eq_nil_iff o p q).1 h
  have name : q.name = p.name := congrArg Prod.fst slot
  cases p
  cases q
  simp_all

@[simp] lemma compareParameter_self (o : DiffOptions) (p : Parameter) :
    compareParameter o p p = [] :=
  (compareParameter_eq_nil_iff o p p).2 ⟨rfl, rfl, rfl, fun _ => rfl⟩

/-- With descriptions compared, only a permutation is silent. -/
theorem compareParameters_eq_nil_iff_perm {o : DiffOptions} (full : o.ignoreDescriptions = false)
    {old new : List Parameter} (distinctOld : (old.map Parameter.slot).Nodup)
    (distinctNew : (new.map Parameter.slot).Nodup) :
    compareParameters o old new = [] ↔ old.Perm new := by
  rw [compareParameters_eq_nil_iff distinctNew]
  have perm : old.Perm new ↔ ∀ p, p ∈ old ↔ p ∈ new :=
    List.perm_ext_iff_of_nodup distinctOld.of_map distinctNew.of_map
  rw [perm]
  constructor
  · rintro ⟨agree, known⟩ p
    have sub : ∀ p ∈ old, p ∈ new := by
      intro p hp
      obtain ⟨q, hq, slot, silent⟩ := agree p hp
      exact eq_of_compareParameter_eq_nil full slot silent ▸ hq
    refine ⟨sub p, fun hp => ?_⟩
    -- the old parameter at the slot of `p` is among the new ones, too
    obtain ⟨p', hp', slot⟩ := List.mem_map.1 (known p hp)
    exact List.inj_on_of_nodup_map distinctNew (sub p' hp') hp slot ▸ hp'
  · intro h
    refine ⟨fun p hp => ⟨p, (h p).1 hp, rfl, compareParameter_self o p⟩, fun q hq => ?_⟩
    exact List.mem_map.2 ⟨q, (h q).2 hq, rfl⟩

/-- A list of parameters differs from itself exactly if two of them share a slot: the search finds
the first of them twice, and the second counts as added. -/
theorem compareParameters_self_eq_nil_iff (o : DiffOptions) (ps : List Parameter) :
    compareParameters o ps ps = [] ↔ (ps.map Parameter.slot).Nodup := by
  constructor
  · intro h
    rw [List.nodup_iff_getElem?_ne_getElem?]
    intro i j hij hj hslot
    rw [List.length_map] at hj
    obtain ⟨p, hp⟩ : ∃ p, ps[i]? = some p :=
      ⟨_, List.getElem?_eq_getElem (Nat.lt_trans hij hj)⟩
    obtain ⟨q, hq⟩ : ∃ q, ps[j]? = some q := ⟨_, List.getElem?_eq_getElem hj⟩
    have slot : p.slot = q.slot := by simpa [hp, hq] using hslot
    have hfree : j ∉ takenBy ps ps := by
      intro htaken
      obtain ⟨p', hp', hexact | gone⟩ := of_mem_takenBy htaken
      · obtain ⟨q', hq', slot', first⟩ := (exactMatch?_eq_some_iff ps p' j).1 hexact
        obtain rfl : q = q' := Option.some.inj (hq.symm.trans hq')
        exact first i hij p hp (slot.trans slot')
      · exact gone (List.mem_map.2 ⟨p', hp', rfl⟩)
    have hd : addedParameter q ∈ compareParameters o ps ps :=
      mem_compareParameters.2 (Or.inr ⟨j, q, hq, hfree, rfl⟩)
    rw [h] at hd
    exact List.not_mem_nil hd
  · intro distinct
    refine (compareParameters_eq_nil_iff distinct).2 ⟨fun p hp => ?_, fun q hq => ?_⟩
    · exact ⟨p, hp, rfl, compareParameter_self o p⟩
    · exact List.mem_map.2 ⟨q, hq, rfl⟩

/-! ## Breaking differences of parameters -/

/-- A change of the parameters that can make a client fail: a slot is lost, tightened, retyped or
newly demanded. -/
inductive ParametersBreak (old new : List Parameter) : Prop where
  | gone (p : Parameter) (mem : p ∈ old) (lost : p.slot ∉ new.map Parameter.slot)
  | nowRequired (p q : Parameter) (mem : p ∈ old) (mem' : q ∈ new) (slot : q.slot = p.slot)
      (was : p.required = false) (is : q.required = true)
  | retyped (p q : Parameter) (mem : p ∈ old) (mem' : q ∈ new) (slot : q.slot = p.slot)
      (type : p.schema ≠ q.schema)
  | demanded (q : Parameter) (mem : q ∈ new) (fresh : q.slot ∉ old.map Parameter.slot)
      (required : q.required = true)

lemma hasBreaking_of_demanded {o : DiffOptions} {old new : List Parameter} {q : Parameter}
    (hq : q ∈ new) (fresh : q.slot ∉ old.map Parameter.slot) (required : q.required = true) :
    HasBreaking (compareParameters o old new) := by
  obtain ⟨i, hi⟩ := List.mem_iff_getElem?.1 hq
  by_cases htaken : i ∈ takenBy new old
  · -- what has taken a fresh slot is a parameter that has moved away from a lost one
    obtain ⟨p, hp, hexact | gone⟩ := of_mem_takenBy htaken
    · obtain ⟨q', hq', slot⟩ := exactMatch?_get hexact
      obtain rfl : q = q' := Option.some.inj (hi.symm.trans hq')
      exact absurd (List.mem_map.2 ⟨p, hp, slot.symm⟩) fresh
    · exact hasBreaking_of_slot_gone hp gone
  · refine ⟨addedParameter q, mem_compareParameters.2 (Or.inr ⟨i, q, hi, htaken, rfl⟩), ?_⟩
    simp [addedParameter, required]

/-- The search for counterparts finds a breaking difference exactly where slots break. -/
theorem hasBreaking_compareParameters_iff {o : DiffOptions} {old new : List Parameter}
    (distinct : (new.map Parameter.slot).Nodup) :
    HasBreaking (compareParameters o old new) ↔ ParametersBreak old new := by
  constructor
  · rintro ⟨d, hd, breaking⟩
    rcases mem_compareParameters.1 hd with ⟨⟨p, c⟩, hpc, hd⟩ | ⟨i, q, hq, hfree, rfl⟩
    · have hp := (mem_pairParameters hpc).1
      by_cases kept : p.slot ∈ new.map Parameter.slot
      · obtain ⟨q, hq, slot⟩ := List.mem_map.1 kept
        obtain ⟨i, hi⟩ := List.mem_iff_getElem?.1 hq
        rw [compareOldParameter_of_nodup distinct o hpc hi slot] at hd
        rcases (hasBreaking_compareParameter_iff o p q).1 ⟨d, hd, breaking⟩ with
          moved | ⟨was, is⟩ | type
        · exact absurd (congrArg Prod.snd slot).symm moved
        · exact .nowRequired p q hp hq slot was is
        · exact .retyped p q hp hq slot type
      · exact .gone p hp kept
    · by_cases known : q.slot ∈ old.map Parameter.slot
      · obtain ⟨p, hp, slot⟩ := List.mem_map.1 known
        exact absurd (mem_takenBy_of_exactMatch? hp
          (exactMatch?_of_nodup distinct hq slot.symm)) hfree
      · refine .demanded q (List.mem_of_getElem? hq) known ?_
        cases hreq : q.required with
        | true => rfl
        | false => simp [addedParameter, hreq] at breaking
  · have shared : ∀ p ∈ old, ∀ q ∈ new, q.slot = p.slot → HasBreaking (compareParameter o p q) →
        HasBreaking (compareParameters o old new) := by
      rintro p hp q hq slot ⟨d, hd, breaking⟩
      obtain ⟨i, hi⟩ := List.mem_iff_getElem?.1 hq
      exact ⟨d, compareOldParameter_of_exactMatch? hp (exactMatch?_of_nodup distinct hi slot) hi hd,
        breaking⟩
    rintro (⟨p, hp, lost⟩ | ⟨p, q, hp, hq, slot, was, is⟩ | ⟨p, q, hp, hq, slot, type⟩ |
      ⟨q, hq, fresh, required⟩)
    · exact hasBreaking_of_slot_gone hp lost
    · exact shared p hp q hq slot
        ((hasBreaking_compareParameter_iff o p q).2 (Or.inr (Or.inl ⟨was, is⟩)))
    · exact shared p hp q hq slot
        ((hasBreaking_compareParameter_iff o p q).2 (Or.inr (Or.inr type)))
    · exact hasBreaking_of_demanded hq fresh required

end Diff

end ApiCanon
