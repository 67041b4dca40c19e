import ApiCanon.Proofs.Diff.Parameters

/-!
# Matching one to one

The parameters of two endpoints are matched from the first old one on: with the new one at the same
slot, or else with the first new one of the same name that is not taken.  A comparison reports just
this matching (`compareParameters_eq_reports`).  A parameter at the same slot is always the
counterpart, and an old one is removed only if all new ones of its name are the counterparts of
others (`Follows`).

A matching is one to one if no new parameter is the counterpart of two old ones, and those that have
lost their slots are matched only with new ones at slots that were vacant (`OneToOne`).  A parameter
that has lost its slot may be given the slot of one further down, which then goes with the same new
one.  This cannot happen exactly if, whenever the slot of a later parameter of the name is reached,
there was room before for all that have lost theirs (`matching_oneToOne_iff`).  Otherwise the order
of the old parameters counts, and `not_oneToOne_of_later` is such a comparison.
-/

namespace ApiCanon.Diff

open Difference (breakingIn)

/-! ## Matchings -/

/-- The old parameters with the new ones that they are compared with. -/
def matching (old new : List Parameter) : List (Parameter × Option Parameter) :=
  (pairParameters new [] old).map fun (p, c) => (p, c.bind (new[·]?))

/-- What a comparison reports of an old parameter and its counterpart. -/
def reportOld (o : DiffOptions) : Parameter × Option Parameter → List Difference
  | (p, some q) => compareParameter o p q
  | (p, none) => [breakingIn "parameter" s!"{parameterLabel p} removed"]

/-- What a comparison reports of a matching: the old parameters one by one, and then those of the
new ones that are nobody's counterpart as added. -/
def reports (o : DiffOptions) (new : List Parameter) (m : List (Parameter × Option Parameter)) :
    List Difference :=
  m.flatMap (reportOld o) ++ (new.filter fun q => q ∉ m.filterMap Prod.snd).map addedParameter

/-- What holds of the matching of any two lists: everyone keeps their slot, and else goes with a new
parameter of the same name as long as there is one that is not taken. -/
structure Follows (old new : List Parameter) (m : List (Parameter × Option Parameter)) : Prop where
  olds : m.map Prod.fst = old
  kept : ∀ p c, (p, c) ∈ m → ∀ q ∈ new, q.slot = p.slot → c = some q
  named : ∀ p q, (p, some q) ∈ m → q ∈ new ∧ q.name = p.name
  removed : ∀ p, (p, none) ∈ m → p.slot ∉ new.map Parameter.slot ∧
    ∀ q ∈ new, q.name = p.name → ∃ p' ≠ p, (p', some q) ∈ m

/-- No new parameter is the counterpart of two old ones, a parameter has moved only to a slot of its
name that was vacant, and it is removed exactly if it has lost its slot and no such slot is left. -/
structure OneToOne (old new : List Parameter) (m : List (Parameter × Option Parameter)) : Prop where
  once : ∀ p p' q, (p, some q) ∈ m → (p', some q) ∈ m → p = p'
  moved : ∀ p q, (p, some q) ∈ m → q.slot ≠ p.slot →
    q ∈ new ∧ q.name = p.name ∧ q.slot ∉ old.map Parameter.slot
  removed : ∀ p ∈ old, (p, none) ∈ m ↔ p.slot ∉ new.map Parameter.slot ∧
    ∀ q ∈ new, q.name = p.name → q.slot ∉ old.map Parameter.slot → ∃ p' ≠ p, (p', some q) ∈ m

/-! ## Strangers -/

/-- The number of parameters of a name in a list whose slots are not among those of others. -/
def strangers (others : List Parameter) (name : String) (ps : List Parameter) : Nat :=
  ps.countP fun p => p.name = name ∧ p.slot ∉ others.map Parameter.slot

/-- If a parameter has lost its slot, then before the slot of a later one of the same name is
reached in the new list there is room for it and for those of the name before it that have lost
theirs: more slots have been vacant. -/
def RoomFor (old new before : List Parameter) (p : Parameter) (after : List Parameter) : Prop :=
  p.slot ∉ new.map Parameter.slot → ∀ r ∈ after, r.name = p.name → ∀ i q, new[i]? = some q →
    q.slot = r.slot → strangers new p.name before < strangers old p.name (new.take i)

/-- There is room for all old parameters that have lost their slots before a later slot is
reached. -/
def RoomFirst (old new : List Parameter) : Prop :=
  ∀ before p after, old = before ++ p :: after → RoomFor old new before p after

section Strangers

variable {others ps : List Parameter} {name : String} {q : Parameter} {i j k : Nat}

lemma strangers_concat (others : List Parameter) (name : String) (ps : List Parameter)
    (q : Parameter) :
    strangers others name (ps ++ [q]) = strangers others name ps +
      if q.name = name ∧ q.slot ∉ others.map Parameter.slot then 1 else 0 := by
  simp only [strangers, List.countP_append, List.countP_singleton, decide_eq_true_eq]

lemma strangers_take_le (others : List Parameter) (name : String) (ps : List Parameter)
    (le : i ≤ j) :
    strangers others name (ps.take i) ≤ strangers others name (ps.take j) :=
  (List.take_prefix_take_left le).sublist.countP_le

/-- A stranger is counted further on. -/
lemma strangers_take_lt (here : ps[i]? = some q) (stranger : q.slot ∉ others.map Parameter.slot)
    (lt : i < j) : strangers others q.name (ps.take i) < strangers others q.name (ps.take j) := by
  have next : strangers others q.name (ps.take (i + 1)) =
      strangers others q.name (ps.take i) + 1 := by
    rw [List.take_add_one, here, Option.toList_some, strangers_concat, if_pos ⟨rfl, stranger⟩]
  have rest : strangers others q.name (ps.take (i + 1)) ≤ strangers others q.name (ps.take j) :=
    strangers_take_le others q.name ps lt
  omega

/-- Strangers of one name have different numbers of them in front. -/
lemma strangers_take_inj {q' : Parameter} (here : ps[i]? = some q) (there : ps[j]? = some q')
    (same : q.name = q'.name) (stranger : q.slot ∉ others.map Parameter.slot)
    (stranger' : q'.slot ∉ others.map Parameter.slot) :
    strangers others q.name (ps.take i) = strangers others q.name (ps.take j) ↔ i = j := by
  refine ⟨fun counts => ?_, fun eq => eq ▸ rfl⟩
  rcases Nat.lt_trichotomy i j with lt | eq | lt
  · have := strangers_take_lt here stranger lt
    omega
  · exact eq
  · have := strangers_take_lt there stranger' lt
    rw [← same] at this
    omega

/-- If there are more strangers than a number, then one of them has that many in front. -/
lemma exists_stranger (more : k < strangers others name (ps.take i)) :
    ∃ j < i, ∃ q, ps[j]? = some q ∧ q.name = name ∧ q.slot ∉ others.map Parameter.slot ∧
      strangers others name (ps.take j) = k := by
  induction i with
  | zero => simp [strangers] at more
  | succ i ih =>
    by_cases before : k < strangers others name (ps.take i)
    · obtain ⟨j, lt, found⟩ := ih before
      exact ⟨j, Nat.lt_succ_of_lt lt, found⟩
    · cases here : ps[i]? with
      | none =>
        rw [List.take_add_one, here, Option.toList_none, List.append_nil] at more
        exact absurd more before
      | some q =>
        rw [List.take_add_one, here, Option.toList_some, strangers_concat] at more
        split_ifs at more with stranger
        · exact ⟨i, Nat.lt_succ_self i, q, here, stranger.1, stranger.2, by omega⟩
        · exact absurd more before

end Strangers

/-! ## Counterparts of those that have lost their slots -/

section Counterparts

variable {old new done rest : List Parameter} {taken : List Nat} {p q : Parameter} {i j : Nat}

/-- A new parameter of the same name that is not taken, and so a counterpart for one without a
slot. -/
def Open (new : List Parameter) (taken : List Nat) (p : Parameter) (i : Nat) : Prop :=
  ∃ q, new[i]? = some q ∧ q.name = p.name ∧ i ∉ taken

lemma location_ne (lost : p.slot ∉ new.map Parameter.slot) (here : new[i]? = some q)
    (name : q.name = p.name) : q.location ≠ p.location := fun location =>
  lost (List.mem_map.2 ⟨q, List.mem_of_getElem? here, Prod.ext name location⟩)

lemma movedMatch?_eq_find? (new : List Parameter) (taken : List Nat) (p : Parameter) :
    movedMatch? new taken p = (List.range new.length).find? fun i => (new[i]?).any fun q =>
      q.name == p.name && q.location != p.location && !taken.contains i := by
  unfold movedMatch?
  congr 1
  funext i
  cases new[i]? <;> rfl

lemma open_iff (lost : p.slot ∉ new.map Parameter.slot) (i : Nat) :
    ((new[i]?).any fun q =>
        q.name == p.name && q.location != p.location && !taken.contains i) = true ↔
      Open new taken p i := by
  cases here : new[i]? with
  | none => simp [Open, here]
  | some q =>
    have elsewhere := location_ne (q := q) lost here
    simp only [Open, here, Option.any_some, Bool.and_eq_true, beq_iff_eq, bne_iff_ne,
      Bool.not_eq_true', List.contains_eq_mem, decide_eq_false_iff_not, Option.some.injEq,
      exists_eq_left']
    tauto

/-- The counterpart of a parameter without a slot is the first one that is open. -/
lemma counterpart?_eq_some_iff_open (lost : p.slot ∉ new.map Parameter.slot) :
    counterpart? new taken p = some i ↔ Open new taken p i ∧ ∀ j < i, ¬Open new taken p j := by
  have search : counterpart? new taken p = movedMatch? new taken p := by
    rw [counterpart?, (exactMatch?_eq_none_iff new p).2 lost]
    rfl
  rw [search, movedMatch?_eq_find?, List.find?_range_eq_some]
  simp only [Bool.not_eq_true', ← Bool.not_eq_true, open_iff lost, List.mem_range]
  constructor
  · rintro ⟨here, -, first⟩
    exact ⟨here, first⟩
  · rintro ⟨⟨q, here, free⟩, first⟩
    exact ⟨⟨q, here, free⟩, (List.getElem?_eq_some_iff.1 here).1, first⟩

lemma counterpart?_eq_none_iff_open (lost : p.slot ∉ new.map Parameter.slot) :
    counterpart? new taken p = none ↔ ∀ i, ¬Open new taken p i := by
  rw [Option.eq_none_iff_forall_ne_some]
  simp only [Ne, counterpart?_eq_some_iff_open lost, not_and, not_forall, not_not]
  constructor
  · intro none i
    -- the first open one would be the counterpart
    induction i using Nat.strongRecOn with
    | ind i ih =>
      intro here
      obtain ⟨j, lt, there⟩ := none i here
      exact ih j lt there
  · intro none i here
    exact absurd here (none i)

/-! ## Runs -/

lemma pairParameters_cons (new : List Parameter) (taken : List Nat) (p : Parameter)
    (rest : List Parameter) : pairParameters new taken (p :: rest) =
      (p, counterpart? new taken p) ::
        pairParameters new ((counterpart? new taken p).toList ++ taken) rest := by
  rw [pairParameters]
  cases counterpart? new taken p <;> rfl

/-- Which positions are taken after some old parameters: those of the slots that they have kept, and
of the vacant slots as many as there are parameters that have lost theirs, from the first on. -/
def Settled (old new done : List Parameter) (taken : List Nat) : Prop :=
  ∀ i q, new[i]? = some q → (i ∈ taken ↔ q.slot ∈ done.map Parameter.slot ∨
    (q.slot ∉ old.map Parameter.slot ∧
      strangers old q.name (new.take i) < strangers new q.name done))

/-- A parameter is compared with a new one at its own slot, or at one that was vacant. -/
def Proper (old new : List Parameter) (p : Parameter) (c : Option Nat) : Prop :=
  ∀ i q, c = some i → new[i]? = some q → q.slot = p.slot ∨ q.slot ∉ old.map Parameter.slot

lemma Settled.nil (old new : List Parameter) : Settled old new [] [] := by
  intro i q _
  simp [strangers]

/-- A parameter that keeps its slot takes the position of the slot. -/
lemma Settled.kept (settled : Settled old new done taken)
    (distinct : (new.map Parameter.slot).Nodup) (exact : exactMatch? new p = some i) :
    Settled old new (done ++ [p]) (i :: taken) := by
  intro j q here
  obtain ⟨q', there, slot⟩ := exactMatch?_get exact
  have position : q.slot = p.slot ↔ j = i := by
    constructor
    · intro same
      exact Option.some.inj ((exactMatch?_of_nodup distinct here same).symm.trans exact)
    · rintro rfl
      obtain rfl := Option.some.inj (here.symm.trans there)
      exact slot
  have known : p.slot ∈ new.map Parameter.slot :=
    List.mem_map.2 ⟨q', List.mem_of_getElem? there, slot⟩
  rw [strangers_concat, if_neg (fun h => h.2 known), Nat.add_zero, List.mem_cons, settled j q here,
    List.map_append, List.mem_append, List.map_singleton, List.mem_singleton, ← position]
  tauto

/-- What is settled of a vacant slot of a name, while there are more old parameters. -/
lemma Settled.mem_iff_of_vacant (settled : Settled old new done taken) (part : done ⊆ old)
    (here : new[i]? = some q) (vacant : q.slot ∉ old.map Parameter.slot) :
    i ∈ taken ↔ strangers old q.name (new.take i) < strangers new q.name done := by
  have fresh : q.slot ∉ done.map Parameter.slot := fun h => vacant (List.map_subset _ part h)
  rw [settled i q here, or_iff_right fresh, and_iff_right vacant]

/-- A parameter that takes a vacant slot takes the next one. -/
lemma Settled.strangers_eq (settled : Settled old new done taken) (part : done ⊆ old)
    (lost : p.slot ∉ new.map Parameter.slot) (found : counterpart? new taken p = some i)
    (here : new[i]? = some q) (vacant : q.slot ∉ old.map Parameter.slot) :
    strangers old q.name (new.take i) = strangers new q.name done := by
  obtain ⟨⟨q', here', name, free⟩, first⟩ := (counterpart?_eq_some_iff_open lost).1 found
  obtain rfl := Option.some.inj (here.symm.trans here')
  rw [settled.mem_iff_of_vacant part here vacant] at free
  by_contra other
  have more : strangers new q.name done < strangers old q.name (new.take i) := by omega
  obtain ⟨j, lt, r, there, same, vacant', count⟩ := exists_stranger more
  refine first j lt ⟨r, there, same.trans name, ?_⟩
  rw [settled.mem_iff_of_vacant part there vacant', same, count]
  exact Nat.lt_irrefl _

/-- One that has lost its slot takes the vacant slot that is next. -/
lemma Settled.lost (settled : Settled old new done taken) (part : done ⊆ old)
    (lost : p.slot ∉ new.map Parameter.slot)
    (proper : Proper old new p (counterpart? new taken p)) :
    Settled old new (done ++ [p]) ((counterpart? new taken p).toList ++ taken) := by
  have vacates : ∀ i q, counterpart? new taken p = some i → new[i]? = some q →
      q.name = p.name ∧ q.slot ∉ old.map Parameter.slot := by
    intro i q found here
    obtain ⟨⟨q', there, name, -⟩, -⟩ := (counterpart?_eq_some_iff_open lost).1 found
    obtain rfl := Option.some.inj (here.symm.trans there)
    refine ⟨name, (proper i q found here).resolve_left fun same => ?_⟩
    exact lost (List.mem_map.2 ⟨q, List.mem_of_getElem? here, same⟩)
  intro j q here
  have other : q.slot ≠ p.slot := fun same =>
    lost (List.mem_map.2 ⟨q, List.mem_of_getElem? here, same⟩)
  rw [strangers_concat, List.mem_append, settled j q here, List.map_append, List.mem_append,
    List.map_singleton, List.mem_singleton, or_iff_left other, Option.mem_toList]
  by_cases next : p.name = q.name ∧ q.slot ∉ old.map Parameter.slot
  · obtain ⟨name, vacant⟩ := next
    have fresh : q.slot ∉ done.map Parameter.slot := fun h => vacant (List.map_subset _ part h)
    have turn : counterpart? new taken p = some j ↔
        strangers old q.name (new.take j) = strangers new q.name done := by
      refine ⟨fun found => settled.strangers_eq part lost found here vacant, fun count => ?_⟩
      have free : Open new taken p j := by
        refine ⟨q, here, name.symm, ?_⟩
        rw [settled.mem_iff_of_vacant part here vacant, count]
        exact Nat.lt_irrefl _
      cases found : counterpart? new taken p with
      | none => exact absurd free ((counterpart?_eq_none_iff_open lost).1 found j)
      | some i =>
        obtain ⟨⟨r, there, same, -⟩, -⟩ := (counterpart?_eq_some_iff_open lost).1 found
        have vacant' := (vacates i r found there).2
        have count' := settled.strangers_eq part lost found there vacant'
        rw [same, name] at count'
        rw [(strangers_take_inj here there (name.symm.trans same.symm) vacant vacant').1
          (count.trans count'.symm)]
    rw [if_pos ⟨name, lost⟩, turn, or_iff_right fresh, or_iff_right fresh, and_iff_right vacant,
      and_iff_right vacant]
    omega
  · have elsewhere : counterpart? new taken p ≠ some j := fun found =>
      next ⟨(vacates j q found here).1.symm, (vacates j q found here).2⟩
    rw [or_iff_right elsewhere]
    split_ifs with name
    · have known : ¬(q.slot ∉ old.map Parameter.slot) := fun vacant => next ⟨name.1, vacant⟩
      simp only [known, false_and]
    · rfl

/-- A run goes on with the next parameter. -/
lemma Settled.step (settled : Settled old new done taken) (part : done ⊆ old)
    (distinct : (new.map Parameter.slot).Nodup)
    (proper : Proper old new p (counterpart? new taken p)) :
    Settled old new (done ++ [p]) ((counterpart? new taken p).toList ++ taken) := by
  cases exact : exactMatch? new p with
  | some i =>
    rw [counterpart?_of_exactMatch? exact]
    exact settled.kept distinct exact
  | none => exact settled.lost part ((exactMatch?_eq_none_iff new p).1 exact) proper

/-- A parameter is compared with one that was not taken. -/
lemma Settled.fresh (settled : Settled old new done taken) (split : old = done ++ p :: rest)
    (distinct : (old.map Parameter.slot).Nodup) (found : counterpart? new taken p = some i) :
    i ∉ taken := by
  cases exact : exactMatch? new p with
  | none =>
    obtain ⟨⟨-, -, -, free⟩, -⟩ :=
      (counterpart?_eq_some_iff_open ((exactMatch?_eq_none_iff new p).1 exact)).1 found
    exact free
  | some j =>
    rw [counterpart?_of_exactMatch? exact] at found
    obtain rfl := Option.some.inj found
    obtain ⟨q, here, slot⟩ := exactMatch?_get exact
    rw [settled j q here, slot]
    rintro (before | ⟨vacant, -⟩)
    · rw [split, List.map_append, List.map_cons] at distinct
      exact (List.nodup_append.1 distinct).2.2 _ before _ List.mem_cons_self rfl
    · exact vacant (List.mem_map.2 ⟨p, by rw [split]; simp, rfl⟩)

/-- Where there is room, a parameter that has lost its slot gets a vacant one, and only there. -/
lemma Settled.proper_iff_of_lost (settled : Settled old new done taken)
    (split : old = done ++ p :: rest) (distinct : (old.map Parameter.slot).Nodup)
    (lost : p.slot ∉ new.map Parameter.slot) :
    Proper old new p (counterpart? new taken p) ↔ RoomFor old new done p rest := by
  have part : done ⊆ old := split ▸ List.subset_append_left done (p :: rest)
  constructor
  · rintro proper - r later name i q here slot
    have known : q.slot ∈ old.map Parameter.slot :=
      List.mem_map.2 ⟨r, by rw [split]; simp [later], slot.symm⟩
    -- the slot of the later parameter is still open
    have free : i ∉ taken := by
      rw [settled i q here, slot]
      rintro (before | ⟨vacant, -⟩)
      · rw [split, List.map_append] at distinct
        exact (List.nodup_append.1 distinct).2.2 _ before _
          (List.mem_map_of_mem (List.mem_cons_of_mem p later)) rfl
      · exact vacant (slot ▸ known)
    have here' : Open new taken p i := ⟨q, here, (congrArg Prod.fst slot).trans name, free⟩
    cases found : counterpart? new taken p with
    | none => exact absurd here' ((counterpart?_eq_none_iff_open lost).1 found i)
    | some j =>
      obtain ⟨⟨q', there, same, -⟩, first⟩ := (counterpart?_eq_some_iff_open lost).1 found
      have vacant : q'.slot ∉ old.map Parameter.slot :=
        (proper j q' found there).resolve_left fun own =>
          lost (List.mem_map.2 ⟨q', List.mem_of_getElem? there, own⟩)
      have lt : j < i := by
        rcases Nat.lt_trichotomy j i with lt | rfl | gt
        · exact lt
        · obtain rfl := Option.some.inj (here.symm.trans there)
          exact absurd known vacant
        · exact absurd here' (first i gt)
      rw [← same, ← settled.strangers_eq part lost found there vacant]
      exact strangers_take_lt there vacant lt
  · intro room i q found here
    obtain ⟨⟨q', there, name, free⟩, first⟩ := (counterpart?_eq_some_iff_open lost).1 found
    obtain rfl := Option.some.inj (here.symm.trans there)
    refine Or.inr fun known => ?_
    obtain ⟨r, mem, slot⟩ := List.mem_map.1 known
    rw [split, List.mem_append, List.mem_cons] at mem
    rcases mem with before | rfl | later
    · exact free ((settled i q here).2 (Or.inl (List.mem_map.2 ⟨r, before, slot⟩)))
    · exact lost (List.mem_map.2 ⟨q, List.mem_of_getElem? here, slot.symm⟩)
    · have more := room lost r later ((congrArg Prod.fst slot).trans name) i q here slot.symm
      obtain ⟨j, lt, q', there, same, vacant, count⟩ := exists_stranger more
      refine first j lt ⟨q', there, same, ?_⟩
      rw [settled.mem_iff_of_vacant part there vacant, same, count]
      exact Nat.lt_irrefl _

lemma Settled.proper_iff (settled : Settled old new done taken) (split : old = done ++ p :: rest)
    (distinct : (old.map Parameter.slot).Nodup) :
    Proper old new p (counterpart? new taken p) ↔ RoomFor old new done p rest := by
  cases exact : exactMatch? new p with
  | none =>
    exact settled.proper_iff_of_lost split distinct ((exactMatch?_eq_none_iff new p).1 exact)
  | some i =>
    obtain ⟨q, here, slot⟩ := exactMatch?_get exact
    refine iff_of_true (fun j q' found there => Or.inl ?_) fun lost => ?_
    · rw [counterpart?_of_exactMatch? exact] at found
      obtain rfl := Option.some.inj found
      obtain rfl := Option.some.inj (here.symm.trans there)
      exact slot
    · exact absurd (List.mem_map.2 ⟨q, List.mem_of_getElem? here, slot⟩) lost

lemma forall_split_cons {motive : List Parameter → Parameter → List Parameter → Prop} :
    (∀ before r after, p :: rest = before ++ r :: after → motive before r after) ↔
      motive [] p rest ∧
        ∀ before r after, rest = before ++ r :: after → motive (p :: before) r after := by
  constructor
  · intro all
    exact ⟨all [] p rest rfl, fun before r after split =>
      all (p :: before) r after (by rw [split]; rfl)⟩
  · rintro ⟨first, later⟩ before r after split
    rcases List.cons_eq_append_iff.1 split with ⟨rfl, same⟩ | ⟨before', rfl, split'⟩
    · obtain ⟨rfl, rfl⟩ := List.cons.inj same
      exact first
    · exact later before' r after split'

/-- A run gives everyone a slot that is their own or was vacant exactly if there is room. -/
lemma Settled.forall_proper_iff (settled : Settled old new done taken) (split : old = done ++ rest)
    (distinctOld : (old.map Parameter.slot).Nodup) (distinctNew : (new.map Parameter.slot).Nodup) :
    (∀ p c, (p, c) ∈ pairParameters new taken rest → Proper old new p c) ↔
      ∀ before p after, rest = before ++ p :: after → RoomFor old new (done ++ before) p after := by
  induction rest generalizing done taken with
  | nil => simp [pairParameters]
  | cons p rest ih =>
    have part : done ⊆ old := split ▸ List.subset_append_left done (p :: rest)
    rw [pairParameters_cons, forall_split_cons, List.append_nil,
      ← settled.proper_iff split distinctOld]
    simp only [List.mem_cons, Prod.mk.injEq]
    have later (proper : Proper old new p (counterpart? new taken p)) :=
      ih (settled.step part distinctNew proper) (by rw [split, List.append_assoc]; rfl)
    simp only [List.append_assoc, List.singleton_append] at later
    constructor
    · intro all
      have proper := all p _ (Or.inl ⟨rfl, rfl⟩)
      exact ⟨proper, (later proper).1 fun p' c mem => all p' c (Or.inr mem)⟩
    · rintro ⟨proper, room⟩ p' c (⟨rfl, rfl⟩ | mem)
      · exact proper
      · exact (later proper).2 room p' c mem

/-- If everyone is given a slot that is their own or was vacant, then none is given twice. -/
lemma Settled.once (settled : Settled old new done taken) (split : old = done ++ rest)
    (distinctOld : (old.map Parameter.slot).Nodup) (distinctNew : (new.map Parameter.slot).Nodup)
    (proper : ∀ p c, (p, c) ∈ pairParameters new taken rest → Proper old new p c) :
    (∀ p i, (p, some i) ∈ pairParameters new taken rest → i ∉ taken) ∧
      ∀ p p' i, (p, some i) ∈ pairParameters new taken rest →
        (p', some i) ∈ pairParameters new taken rest → p = p' := by
  induction rest generalizing done taken with
  | nil => simp [pairParameters]
  | cons r rest ih =>
    have part : done ⊆ old := split ▸ List.subset_append_left done (r :: rest)
    rw [pairParameters_cons] at proper ⊢
    have next := settled.step part distinctNew (proper r _ List.mem_cons_self)
    obtain ⟨free, unique⟩ := ih next (by rw [split, List.append_assoc]; rfl)
      fun p c mem => proper p c (List.mem_cons_of_mem _ mem)
    -- what is given later is neither taken before nor now
    have apart : ∀ p i,
        (p, some i) ∈ pairParameters new ((counterpart? new taken r).toList ++ taken) rest →
          counterpart? new taken r ≠ some i ∧ i ∉ taken := by
      intro p i mem
      have := free p i mem
      rw [List.mem_append, Option.mem_toList, not_or] at this
      exact this
    simp only [List.mem_cons, Prod.mk.injEq]
    constructor
    · rintro p i (⟨rfl, found⟩ | mem)
      · exact settled.fresh split distinctOld found.symm
      · exact (apart p i mem).2
    · rintro p p' i (⟨rfl, found⟩ | mem) (⟨rfl, found'⟩ | mem')
      · rfl
      · exact absurd found.symm (apart p' i mem').1
      · exact absurd found'.symm (apart p i mem).1
      · exact unique p p' i mem mem'

end Counterparts

/-! ## What holds of every matching -/

section Matchings

variable {old new : List Parameter} {taken : List Nat} {p q : Parameter} {i : Nat}

lemma counterpart?_get (found : counterpart? new taken p = some i) :
    ∃ q, new[i]? = some q ∧ q.name = p.name := by
  cases exact : exactMatch? new p with
  | some j =>
    rw [counterpart?_of_exactMatch? exact] at found
    obtain rfl := Option.some.inj found
    obtain ⟨q, here, slot⟩ := exactMatch?_get exact
    exact ⟨q, here, congrArg Prod.fst slot⟩
  | none =>
    obtain ⟨q, here, name, -⟩ :=
      counterpart?_of_slot_gone ((exactMatch?_eq_none_iff new p).1 exact) found
    exact ⟨q, here, name⟩

lemma pairParameters_get (mem : (p, some i) ∈ pairParameters new taken old) :
    ∃ q, new[i]? = some q ∧ q.name = p.name := by
  obtain ⟨-, taken', found⟩ := mem_pairParameters mem
  exact counterpart?_get found.symm

lemma map_fst_pairParameters (new : List Parameter) (taken : List Nat) (old : List Parameter) :
    (pairParameters new taken old).map Prod.fst = old := by
  induction old generalizing taken with
  | nil => rfl
  | cons p rest ih => rw [pairParameters_cons, List.map_cons, ih]

/-- A parameter is without a counterpart only if all new ones of its name are taken. -/
lemma mem_taken_or_of_none (mem : (p, none) ∈ pairParameters new taken old)
    (here : new[i]? = some q) (name : q.name = p.name) :
    i ∈ taken ∨ ∃ p', (p', some i) ∈ pairParameters new taken old := by
  have lost : p.slot ∉ new.map Parameter.slot := by
    obtain ⟨-, taken', found⟩ := mem_pairParameters mem
    rw [← exactMatch?_eq_none_iff]
    cases exact : exactMatch? new p with
    | none => rfl
    | some j => exact absurd (found.trans (counterpart?_of_exactMatch? exact taken')) nofun
  induction old generalizing taken with
  | nil => exact absurd mem List.not_mem_nil
  | cons r rest ih =>
    rw [pairParameters_cons, List.mem_cons, Prod.mk.injEq] at mem
    rw [pairParameters_cons]
    rcases mem with ⟨rfl, found⟩ | mem
    · left
      by_contra free
      exact (counterpart?_eq_none_iff_open lost).1 found.symm i ⟨q, here, name, free⟩
    · rcases ih mem with before | ⟨p', mem'⟩
      · rcases List.mem_append.1 before with now | before
        · exact Or.inr ⟨r, List.mem_cons.2 (Or.inl (Prod.ext rfl (Option.mem_toList.1 now).symm))⟩
        · exact Or.inl before
      · exact Or.inr ⟨p', List.mem_cons_of_mem _ mem'⟩

lemma some_mem_matching : (p, some q) ∈ matching old new ↔
    ∃ i, (p, some i) ∈ pairParameters new [] old ∧ new[i]? = some q := by
  simp only [matching, List.mem_map, Prod.mk.injEq, Option.bind_eq_some_iff, Prod.exists]
  constructor
  · rintro ⟨p, -, mem, rfl, i, rfl, here⟩
    exact ⟨i, mem, here⟩
  · rintro ⟨i, mem, here⟩
    exact ⟨p, some i, mem, rfl, i, rfl, here⟩

lemma none_mem_matching : (p, none) ∈ matching old new ↔ (p, none) ∈ pairParameters new [] old := by
  simp only [matching, List.mem_map, Prod.mk.injEq, Prod.exists]
  constructor
  · rintro ⟨p, _ | i, mem, rfl, none⟩
    · exact mem
    · obtain ⟨q, here, -⟩ := pairParameters_get mem
      exact absurd (here.symm.trans none) nofun
  · intro mem
    exact ⟨p, none, mem, rfl, rfl⟩

lemma map_fst_matching (old new : List Parameter) : (matching old new).map Prod.fst = old := by
  rw [matching, List.map_map]
  exact map_fst_pairParameters new [] old

/-- Everyone has one counterpart, or none. -/
lemma matching_functional (distinct : (old.map Parameter.slot).Nodup) {c c' : Option Parameter}
    (mem : (p, c) ∈ matching old new) (mem' : (p, c') ∈ matching old new) : c = c' := by
  have nodup : ((matching old new).map Prod.fst).Nodup := by
    rw [map_fst_matching]
    exact distinct.of_map
  exact congrArg Prod.snd (List.inj_on_of_nodup_map nodup mem mem' rfl)

lemma matching_kept (distinct : (new.map Parameter.slot).Nodup) {c : Option Parameter}
    (mem : (p, c) ∈ matching old new) (known : q ∈ new) (slot : q.slot = p.slot) : c = some q := by
  obtain ⟨⟨p, place⟩, pair, same⟩ := List.mem_map.1 mem
  obtain ⟨rfl, rfl⟩ := Prod.mk.inj same
  obtain ⟨i, here⟩ := List.mem_iff_getElem?.1 known
  obtain ⟨-, taken, found⟩ := mem_pairParameters pair
  rw [counterpart?_of_exactMatch? (exactMatch?_of_nodup distinct here slot)] at found
  obtain rfl : place = some i := found
  exact here

lemma matching_named (mem : (p, some q) ∈ matching old new) : q ∈ new ∧ q.name = p.name := by
  obtain ⟨i, mem, here⟩ := some_mem_matching.1 mem
  obtain ⟨q', there, name⟩ := pairParameters_get mem
  obtain rfl := Option.some.inj (here.symm.trans there)
  exact ⟨List.mem_of_getElem? here, name⟩

/-- Everyone keeps their slot, and else goes with a new parameter of the same name that is not
taken. -/
lemma matching_follows (distinctOld : (old.map Parameter.slot).Nodup)
    (distinctNew : (new.map Parameter.slot).Nodup) : Follows old new (matching old new) where
  olds := map_fst_matching old new
  kept _ _ mem _ known slot := matching_kept distinctNew mem known slot
  named _ _ mem := matching_named mem
  removed p mem := by
    constructor
    · rintro kept
      obtain ⟨q, known, slot⟩ := List.mem_map.1 kept
      exact absurd (matching_kept distinctNew mem known slot) nofun
    · intro q known name
      obtain ⟨i, here⟩ := List.mem_iff_getElem?.1 known
      obtain ⟨p', mem'⟩ : ∃ p', (p', some i) ∈ pairParameters new [] old :=
        (mem_taken_or_of_none (none_mem_matching.1 mem) here name).resolve_left List.not_mem_nil
      have given : (p', some q) ∈ matching old new := some_mem_matching.2 ⟨i, mem', here⟩
      refine ⟨p', ?_, given⟩
      rintro rfl
      exact absurd (matching_functional distinctOld mem given) nofun

/-! ## Matchings that are one to one -/

/-- A matching is one to one exactly if there is room. -/
lemma oneToOne_iff_roomFirst (distinctOld : (old.map Parameter.slot).Nodup)
    (distinctNew : (new.map Parameter.slot).Nodup) :
    OneToOne old new (matching old new) ↔ RoomFirst old new := by
  have proper_iff := (Settled.nil old new).forall_proper_iff rfl distinctOld distinctNew
  constructor
  · intro oneToOne
    refine proper_iff.1 fun p c mem i q found here => ?_
    subst found
    by_cases own : q.slot = p.slot
    · exact Or.inl own
    · exact Or.inr (oneToOne.moved p q (some_mem_matching.2 ⟨i, mem, here⟩) own).2.2
  · intro room
    have proper := proper_iff.2 room
    obtain ⟨-, unique⟩ := (Settled.nil old new).once rfl distinctOld distinctNew proper
    have once : ∀ p p' q, (p, some q) ∈ matching old new →
        (p', some q) ∈ matching old new → p = p' := by
      intro p p' q mem mem'
      obtain ⟨i, pair, here⟩ := some_mem_matching.1 mem
      obtain ⟨j, pair', there⟩ := some_mem_matching.1 mem'
      -- the new parameters are distinct, so that one stands at one position
      obtain rfl : i = j := (List.getElem?_inj (List.getElem?_eq_some_iff.1 here).1
        distinctNew.of_map).1 (here.trans there.symm)
      exact unique p p' i pair pair'
    have moved : ∀ p q, (p, some q) ∈ matching old new → q.slot ≠ p.slot →
        q ∈ new ∧ q.name = p.name ∧ q.slot ∉ old.map Parameter.slot := by
      intro p q mem other
      obtain ⟨i, pair, here⟩ := some_mem_matching.1 mem
      obtain ⟨known, name⟩ := matching_named mem
      exact ⟨known, name, (proper p _ pair i q rfl here).resolve_left other⟩
    refine ⟨once, moved, fun p mem => ⟨fun none => ?_, ?_⟩⟩
    · obtain ⟨lost, given⟩ := (matching_follows distinctOld distinctNew).removed p none
      exact ⟨lost, fun q known name _ => given q known name⟩
    · rintro ⟨lost, given⟩
      obtain ⟨place, pair⟩ := exists_pair new [] mem
      cases place with
      | none => exact none_mem_matching.2 pair
      | some i =>
        obtain ⟨q, here, -⟩ := pairParameters_get pair
        have own : (p, some q) ∈ matching old new := some_mem_matching.2 ⟨i, pair, here⟩
        obtain ⟨known, name, vacant⟩ := moved p q own fun slot =>
          lost (List.mem_map.2 ⟨q, List.mem_of_getElem? here, slot⟩)
        obtain ⟨p', other, mem'⟩ := given q known name vacant
        exact absurd (once p' p q mem' own) other

/-! ## What is reported -/

lemma untaken_eq_filter {taken : List Nat} {k : Nat} {l : List Parameter} {keep : Parameter → Bool}
    (free : ∀ i q, l[i]? = some q → (keep q = true ↔ k + i ∉ taken)) :
    untaken taken k l = l.filter keep := by
  induction l generalizing k with
  | nil => rfl
  | cons p rest ih =>
    have first := free 0 p rfl
    have later := ih (k := k + 1) fun i q here => by
      rw [Nat.add_assoc, Nat.add_comm 1 i]
      exact free (i + 1) q here
    rw [Nat.add_zero] at first
    rw [untaken, List.filter_cons, later]
    by_cases here : k ∈ taken
    · have dropped : ¬keep p = true := fun kept => first.1 kept here
      rw [if_pos (List.contains_iff_mem.2 here), if_neg dropped]
    · rw [if_neg (mt List.contains_iff_mem.1 here), if_pos (first.2 here)]

/-- A comparison reports the matching: what has become of the old parameters, and then the new ones
that are nobody's counterpart. -/
lemma compareParameters_eq_reports (o : DiffOptions) (old : List Parameter)
    (distinct : (new.map Parameter.slot).Nodup) :
    compareParameters o old new = reports o new (matching old new) := by
  have each : ∀ pair ∈ pairParameters new [] old,
      compareOldParameter o new pair = reportOld o (pair.1, pair.2.bind (new[·]?)) := by
    rintro ⟨p, _ | i⟩ mem
    · rfl
    · obtain ⟨q, here, -⟩ := pairParameters_get mem
      simp only [compareOldParameter, Option.bind_some, here, reportOld]
  have free : ∀ i q, new[i]? = some q → (decide (q ∉ (matching old new).filterMap Prod.snd) = true ↔
      0 + i ∉ (pairParameters new [] old).filterMap (·.2)) := by
    intro i q here
    rw [decide_eq_true_eq, Nat.zero_add]
    refine not_congr ?_
    simp only [List.mem_filterMap, Prod.exists, exists_eq_right]
    constructor
    · rintro ⟨p, mem⟩
      obtain ⟨j, pair, there⟩ := some_mem_matching.1 mem
      obtain rfl : i = j := (List.getElem?_inj (List.getElem?_eq_some_iff.1 here).1
        distinct.of_map).1 (here.trans there.symm)
      exact ⟨p, pair⟩
    · rintro ⟨p, pair⟩
      exact ⟨p, some_mem_matching.2 ⟨i, pair, here⟩⟩
  rw [compareParameters, reports, untaken_eq_filter free, matching, List.flatMap_map,
    List.flatMap_congr each]

/-- **Parameters are matched one to one exactly where there is room.**  For any two lists of
parameters with distinct slots the comparison reports its matching, in which everyone keeps their
slot and an old parameter is removed only if no new one of its name is left.  No new parameter is
the counterpart of two old ones and nobody has moved to a slot that the old list knew, exactly if
before each slot of a later parameter there is room for those of its name that have lost theirs: the
search for one of these leaves out the new parameters that are taken, but not those that will be. -/
theorem matching_oneToOne_iff {old new : List Parameter}
    (distinctOld : (old.map Parameter.slot).Nodup) (distinctNew : (new.map Parameter.slot).Nodup) :
    (∀ o, compareParameters o old new = reports o new (matching old new)) ∧
      Follows old new (matching old new) ∧
      (OneToOne old new (matching old new) ↔ RoomFirst old new) :=
  ⟨fun o => compareParameters_eq_reports o old distinctNew,
    matching_follows distinctOld distinctNew, oneToOne_iff_roomFirst distinctOld distinctNew⟩

end Matchings

/-- A text `q` at some place. -/
def textAt (l : Location) : Parameter := .plain "q" l (.primitive "string")

/-- Two parameters that have lost their slots move to those that were vacant, the first of them to
the one in front, and the third keeps its slot. -/
theorem matching_oneToOne_vacant :
    ([textAt .cookie, textAt .query, textAt .header].map Parameter.slot).Nodup ∧
      ([textAt .path, textAt .body, textAt .header].map Parameter.slot).Nodup ∧
      OneToOne [textAt .cookie, textAt .query, textAt .header]
        [textAt .path, textAt .body, textAt .header]
        [(textAt .cookie, some (textAt .path)), (textAt .query, some (textAt .body)),
          (textAt .header, some (textAt .header))] := by
  have distinctOld :
      ([textAt .cookie, textAt .query, textAt .header].map Parameter.slot).Nodup := by
    decide
  have distinctNew : ([textAt .path, textAt .body, textAt .header].map Parameter.slot).Nodup := by
    decide
  have room : RoomFirst [textAt .cookie, textAt .query, textAt .header]
      [textAt .path, textAt .body, textAt .header] := by
    -- of the slots of the old list the new one has that of the last parameter only
    have last : ∀ r ∈ [textAt .query, textAt .header], ∀ i q,
        [textAt .path, textAt .body, textAt .header][i]? = some q → q.slot = r.slot → i = 2 := by
      intro r mem i q here slot
      have found := exactMatch?_of_nodup distinctNew here slot
      rcases List.mem_cons.1 mem with rfl | mem
      · have lost :
            exactMatch? [textAt .path, textAt .body, textAt .header] (textAt .query) = none := by
          decide +kernel
        exact absurd (found.symm.trans lost) nofun
      · obtain rfl := List.mem_singleton.1 mem
        exact Option.some.inj (found.symm.trans (by decide +kernel))
    simp only [RoomFirst, forall_split_cons]
    refine ⟨fun _ r mem _ i q here slot => ?_, fun _ r mem _ i q here slot => ?_, ?_, ?_⟩
    · obtain rfl := last r mem i q here slot
      decide +kernel
    · obtain rfl := last r (List.mem_cons_of_mem _ mem) i q here slot
      decide +kernel
    · intro _ r mem
      exact absurd mem List.not_mem_nil
    · intro before p after split
      exact absurd split (by simp)
  exact ⟨distinctOld, distinctNew, (matching_oneToOne_iff distinctOld distinctNew).2.2.2 room⟩

/-- **The slot of a later parameter is given away.**  The cookie parameter moves to the header,
where there was one before and is one now, and that goes with the same parameter: nothing is
reported as removed. -/
theorem not_oneToOne_of_later :
    ([textAt .cookie, textAt .header].map Parameter.slot).Nodup ∧
      ([textAt .header].map Parameter.slot).Nodup ∧
      ¬OneToOne [textAt .cookie, textAt .header] [textAt .header]
        (matching [textAt .cookie, textAt .header] [textAt .header]) ∧
      compareParameters .default [textAt .cookie, textAt .header] [textAt .header] =
        [breakingIn "parameter" "parameter 'q' moved from cookie to header"] := by
  refine ⟨by decide, by decide, fun oneToOne => ?_, by decide +kernel⟩
  have moved := oneToOne.moved (textAt .cookie) (textAt .header) (by decide +kernel) (by decide)
  exact absurd moved.2.2 (by decide)

end ApiCanon.Diff
