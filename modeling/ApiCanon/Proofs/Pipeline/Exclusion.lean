import ApiCanon.Proofs.Pipeline.SharedReadings

/-!
# Who reads at a time

How many flights with one key are inside of a reader at a time.  Those that are hold different
gates, so that it is a matter of how many gates there are for the key.  A new gate is listed only
after another one has been taken off the list, by a flight that leaves; so there is at most one gate
more than there are flights that have left (`Accounted`), and at most so many flights are reading
(`inside_le_of_follow?`).

If what is read is kept and comes back, one flight at most is reading (`Single.inside_le`).
Otherwise it need not be so.  A flight whose reading fails takes its gate off the list while others
still wait for it, and the next one to arrive lists a gate of its own; then one flight reads behind
each of the two gates (`not_exclusive_of_failure`).
-/

namespace ApiCanon

namespace FlightStage

/-- The gate that is known. -/
def gate? : FlightStage → Option Nat
  | waiting g | admitted g | reading g _ | done g _ | answered g _ | leaving g _ => some g
  | arrived | missed | returned _ => none

/-- There is no gate any more that is to be taken off the list. -/
def hasLeft : FlightStage → Bool
  | leaving _ _ | returned _ => true
  | _ => false

lemma gate?_of_held? {stage : FlightStage} {g : Nat} (held : stage.held? = some g) :
    stage.gate? = some g := by
  cases stage <;> first | exact held | cases held

end FlightStage

namespace Flights

variable {p : Pipeline} {requests : List ReadRequest} {s s' : Flights} {now : Timestamp} {n : Nat}
  {key : String} {m : Records} {G G' : List Nat} {q : ReadRequest} {key? : Option String}
  {old stage : FlightStage}

/-- The number of flights with a key that are inside of a reader. -/
def inside (key : String) (s : Flights) : Nat :=
  s.flights.countP fun f => f.key? == some key && f.stage.isReading

/-- The number of flights with a key that have left. -/
def leftFor (key : String) (s : Flights) : Nat :=
  s.flights.countP fun f => f.key? == some key && f.stage.hasLeft

/-- Flights that read behind some gates are not more than the gates. -/
lemma Exclusive.inside_le (exclusive : s.Exclusive)
    (behind : ∀ f ∈ s.flights, f.key? = some key → f.stage.isReading = true →
      ∀ g, f.stage.held? = some g → g ∈ G) : s.inside key ≤ G.length := by
  let gateOf (f : Flight) : Option Nat :=
    if f.key? == some key && f.stage.isReading then f.stage.held? else none
  have of_gateOf : ∀ (f : Flight) (g : Nat), gateOf f = some g →
      f.key? = some key ∧ f.stage.isReading = true ∧ f.stage.held? = some g := by
    intro f g hg
    simp only [gateOf] at hg
    split_ifs at hg with reads
    simp only [Bool.and_eq_true, beq_iff_eq] at reads
    exact ⟨reads.1, reads.2, hg⟩
  have count : s.inside key = (s.flights.filterMap gateOf).length := by
    rw [List.length_filterMap_eq_countP, inside]
    refine List.countP_congr fun f _ => ?_
    obtain ⟨q, key?, stage⟩ := f
    cases stage <;> simp [gateOf, FlightStage.isReading, FlightStage.held?]
  have distinct : (s.flights.filterMap gateOf).Nodup := by
    rw [List.Nodup, List.pairwise_filterMap, List.pairwise_iff_getElem]
    intro i j hi hj less g hg g' hg' same
    have held := (of_gateOf _ g hg).2.2
    have held' := (of_gateOf _ g' hg').2.2
    have meet := exclusive i j _ _ g (List.getElem?_eq_getElem hi) (List.getElem?_eq_getElem hj)
      held (same ▸ held')
    omega
  have sub : s.flights.filterMap gateOf ⊆ G := by
    intro g hg
    obtain ⟨f, hf, hg⟩ := List.mem_filterMap.1 hg
    obtain ⟨hk, reads, held⟩ := of_gateOf f g hg
    exact behind f hf hk reads g held
  rw [count]
  exact (distinct.subperm sub).length_le

/-! ## Gates and flights that have left -/

/-- One if no gate is listed for a key. -/
def vacancy (key : String) (s : Flights) : Nat := if (s.gates.get? key).isNone then 1 else 0

/-- All gates that there have been for a key, of which there are not more than one and those of
flights that have left. -/
structure Accounted (key : String) (G : List Nat) (s : Flights) : Prop where
  listed : ∀ g, s.gates.get? key = some g → g ∈ G
  known : ∀ (i : Nat) (f : Flight), s.flights[i]? = some f → f.key? = some key →
    ∀ g, f.stage.gate? = some g → g ∈ G
  count : G.length + s.vacancy key ≤ 1 + s.leftFor key

lemma start_accounted (p : Pipeline) (requests : List ReadRequest) (key : String) :
    Accounted key [] (start p requests) where
  listed := nofun
  known := by
    intro i f hf _ g known
    rw [stage_of_start hf] at known
    cases known
  count := Nat.le_add_right 1 _

/-- A flight moves on, and the gates are accounted for again. -/
lemma Accounted.put (h : Accounted key G s) (here : s.flights[n]? = some ⟨q, key?, old⟩)
    (flights : s'.flights = (s.put n stage).flights) (more : G ⊆ G')
    (listed : ∀ g, s'.gates.get? key = some g → g ∈ G')
    (known : key? = some key → ∀ g, stage.gate? = some g → g ∈ G')
    (count : G'.length + s'.vacancy key + (if key? == some key && old.hasLeft then 1 else 0) ≤
      G.length + s.vacancy key + if key? == some key && stage.hasLeft then 1 else 0) :
    Accounted key G' s' where
  listed := listed
  known := by
    intro i f hf hk g hg
    rw [flights] at hf
    rcases of_getElem?_put here hf with ⟨-, rfl⟩ | ⟨-, hf⟩
    · exact known hk g hg
    · exact more (h.known i f hf hk g hg)
  count := by
    have counted := countP_put here stage fun f => f.key? == some key && f.stage.hasLeft
    have before := h.count
    rw [leftFor] at before ⊢
    rw [flights]
    dsimp only at counted
    omega

/-- A flight moves on and leaves the list of gates as it is. -/
lemma Accounted.keep (h : Accounted key G s) (here : s.flights[n]? = some ⟨q, key?, old⟩)
    (flights : s'.flights = (s.put n stage).flights) (gates : s'.gates = s.gates)
    (staying : old.hasLeft = false ∨ stage.hasLeft = true)
    (known : key? = some key → ∀ g, stage.gate? = some g → g ∈ G) : Accounted key G s' := by
  refine h.put here flights (List.Subset.refl G) (gates ▸ h.listed) known ?_
  rw [vacancy, vacancy, gates]
  rcases staying with stays | leaves
  · simp [stays]
  · rw [leaves]
    split_ifs <;> simp_all

/-- Every step adds one gate at most, and only if none is listed. -/
lemma Accounted.moves (h : Accounted key G s) (move : Moves s now n s') :
    ∃ G', Accounted key G' s' := by
  cases move with
  | apart here _ => exact ⟨G, h.keep here rfl rfl (Or.inr rfl) nofun⟩
  | @turn q key' _ _ here t =>
    have known := fun hk => h.known n _ here hk
    cases t with
    | found => exact ⟨G, h.keep here rfl rfl (Or.inl rfl) nofun⟩
    | miss => exact ⟨G, h.keep here rfl rfl (Or.inl rfl) nofun⟩
    | take listed =>
      refine ⟨G, h.keep here rfl rfl (Or.inl rfl) fun hk g hg => ?_⟩
      obtain rfl := Option.some.inj hk
      obtain rfl := Option.some.inj hg
      exact h.listed _ listed
    | list none =>
      by_cases hk : key' = key
      · subst hk
        refine ⟨s.made :: G, h.put here rfl (List.subset_cons_self _ _) ?_ ?_ ?_⟩
        · intro g hg
          rw [put_gates, SortedMap.get?_insert_self] at hg
          exact Option.some.inj hg ▸ List.mem_cons_self
        · intro _ g hg
          exact Option.some.inj hg ▸ List.mem_cons_self
        · simp [vacancy, none, FlightStage.hasLeft]
      · have same : (s.gates.insert key' s.made).get? key = s.gates.get? key := by
          rw [SortedMap.get?_insert, if_neg fun same => hk same.symm]
        refine ⟨G, h.put here rfl (List.Subset.refl G) ?_ ?_ ?_⟩
        · rw [put_gates, same]
          exact h.listed
        · exact fun hk' => absurd (Option.some.inj hk') hk
        · simp [vacancy, same, hk]
    | enter => exact ⟨G, h.keep here rfl rfl (Or.inl rfl) known⟩
    | foundAgain => exact ⟨G, h.keep here rfl rfl (Or.inl rfl) known⟩
    | begin => exact ⟨G, h.keep here rfl rfl (Or.inl rfl) known⟩
    | finish => exact ⟨G, h.keep here rfl rfl (Or.inl rfl) known⟩
    | keep => exact ⟨G, h.keep here rfl rfl (Or.inl rfl) known⟩
    | delist =>
      refine ⟨G, h.put here rfl (List.Subset.refl G) ?_ known ?_⟩
      · intro g hg
        rw [put_gates, SortedMap.get?_erase] at hg
        split_ifs at hg
        exact h.listed g hg
      · by_cases hk : key' = key
        · subst hk
          simp only [vacancy, FlightStage.hasLeft]
          split_ifs <;> simp_all
        · simp [vacancy, SortedMap.get?_erase, hk, Ne.symm hk]
    | release => exact ⟨G, h.keep here rfl rfl (Or.inr rfl) nofun⟩

/-- As many flights with a key are reading as have left, and one more, at most. -/
theorem inside_le_of_follow? {steps : List (Timestamp × Nat)}
    (run : (start p requests).follow? steps = some s) (key : String) :
    s.inside key ≤ 1 + s.leftFor key := by
  obtain ⟨G, accounted⟩ := follow_keeps (P := fun s => ∃ G, Accounted key G s)
    (fun _ _ _ _ ⟨_, h⟩ move => h.moves move) ⟨[], start_accounted p requests key⟩ run
  have bound : s.inside key ≤ G.length := by
    refine (sound_of_follow? run).exclusive.inside_le fun f hf hk _ g held => ?_
    obtain ⟨i, hi⟩ := List.mem_iff_getElem?.1 hf
    exact accounted.known i f hi hk g (FlightStage.gate?_of_held? held)
  have count := accounted.count
  omega

/-! ## What is kept -/

/-- Where results are kept and come back, one flight at most is reading. -/
lemma Single.inside_le {V : Timestamp → Prop} (h : Single V p requests key s)
    (exclusive : s.Exclusive) : s.inside key ≤ 1 := by
  obtain ⟨m, -, before | ⟨t, q₀, r₀, -, -, after⟩⟩ := h
  · have bound : s.inside key ≤ (s.gates.get? key).toList.length := by
      refine exclusive.inside_le fun f hf hk reads g held => ?_
      obtain ⟨i, hi⟩ := List.mem_iff_getElem?.1 hf
      obtain ⟨q, key?, stage⟩ := f
      obtain rfl : key? = some key := hk
      have works : stage.isWorking = true := by
        cases stage <;> first | rfl | cases reads
      have listed := (before.early i q stage hi).held works
      rw [← listed]
      exact Option.mem_toList.2 held
    have one : (s.gates.get? key).toList.length ≤ 1 := by
      cases s.gates.get? key <;> simp
    omega
  · refine (exclusive.inside_le (G := []) fun f hf hk reads g held => ?_).trans (Nat.zero_le 1)
    obtain ⟨i, hi⟩ := List.mem_iff_getElem?.1 hf
    obtain ⟨q, key?, stage⟩ := f
    obtain rfl : key? = some key := hk
    have late := after.late i q stage hi
    cases stage <;> first | exact late.elim | cases reads

/-- **Who reads at a time.**  Flights that are reading hold different gates.  Of those with one key
there is at most one more than have left; and at most one, if results are kept and come back. -/
theorem reading_exclusive {steps : List (Timestamp × Nat)}
    (run : (start p requests).follow? steps = some s) :
    (∀ (i j : Nat) (f f' : Flight), s.flights[i]? = some f → s.flights[j]? = some f' →
        f.stage.isReading = true → f.stage.held? = f'.stage.held? → i = j) ∧
      ∀ key, s.inside key ≤ 1 + s.leftFor key ∧
        ∀ (V : Timestamp → Prop) (m : Records), p.Remembers m →
          (m key).bind ReadResult.reread? = none → Lasting V p requests key →
            (∀ v ∈ steps, V v.1) → s.inside key ≤ 1 := by
  have exclusive := (sound_of_follow? run).exclusive
  refine ⟨fun i j f f' hf hf' reads same => ?_, fun key => ⟨inside_le_of_follow? run key, ?_⟩⟩
  · obtain ⟨g, held⟩ : ∃ g, f.stage.held? = some g := by
      cases hs : f.stage <;> rw [hs] at reads <;> first | exact ⟨_, rfl⟩ | cases reads
    exact exclusive i j f f' g hf hf' held (same ▸ held)
  · intro V m remembers unread lasting moments
    exact (single_of_follow? remembers unread lasting moments run).inside_le exclusive

/-- While one of two flights for one source is reading, the other one waits. -/
theorem reading_exclusive_listing :
    ∃ s, (start inMemory [listingFrom "a.js", listingFrom "b.js"]).follow?
        ([0, 0, 0, 0, 1, 1].map fun i => (⟨0, 0⟩, i)) = some s ∧ s.inside listingKey ≤ 1 := by
  have concerted : Concerted inMemory [listingFrom "a.js", listingFrom "b.js"] listingKey _ :=
    concerted_of_alike (fun _ hq _ => listingFrom_alike hq)
      (congrArg ReadResult.succeeded (listingFrom_result "a.js"))
  have lasting := concerted.lasting listingFrom_portable listingFrom_flat
  have goes : ((start inMemory [listingFrom "a.js", listingFrom "b.js"]).follow?
      ([0, 0, 0, 0, 1, 1].map fun i => (⟨0, 0⟩, i))).isSome = true := by decide +kernel
  obtain ⟨s, run⟩ := Option.isSome_iff_exists.1 goes
  refine ⟨s, run, ((reading_exclusive run).2 listingKey).2 _ _ inMemory_remembers rfl lasting ?_⟩
  have valid : Timestamp.Valid ⟨0, 0⟩ := ⟨by decide, by decide⟩
  intro v hv
  obtain ⟨i, -, rfl⟩ := List.mem_map.1 hv
  exact valid

/-! ### A source that cannot be read -/

/-- A document that ends too soon. -/
def brokenRequest : ReadRequest := ⟨"graphql", .inline (Bytes.ofString "type"), none⟩

/-- The key of the document. -/
def brokenKey : String := CacheKey.derive "graphql" (Bytes.ofString "type") none

/-- The first flight reads while the second one waits for its gate, fails and leaves; the third one
lists another gate and begins to read, and so does the second one behind the first gate. -/
def overlap : List (Timestamp × Nat) :=
  [0, 0, 0, 0, 1, 1, 0, 0, 0, 0, 2, 2, 2, 2, 1, 1].map fun i => (⟨0, 0⟩, i)

/-- **Two flights with one key may be reading at a time**, if readings fail. -/
theorem not_exclusive_of_failure :
    ∃ s, (start inMemory [brokenRequest, brokenRequest, brokenRequest]).follow? overlap = some s ∧
      inMemory.cacheKey? brokenRequest = some brokenKey ∧ s.inside brokenKey = 2 := by
  have goes : ((start inMemory [brokenRequest, brokenRequest, brokenRequest]).follow?
      overlap).map (inside brokenKey) = some 2 := by decide +kernel
  obtain ⟨s, run, two⟩ := Option.map_eq_some_iff.1 goes
  have known : inMemory.registry.supports brokenRequest.tag = true := by decide
  refine ⟨s, run, ?_, two⟩
  rw [Pipeline.cacheKey?, known]
  rfl

end Flights

end ApiCanon
