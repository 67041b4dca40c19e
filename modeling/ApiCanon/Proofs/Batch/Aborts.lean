import ApiCanon.Proofs.Batch.Accounts
import ApiCanon.Proofs.Batch.Calls

/-!
# Batches that are aborted

What becomes of a batch whose first failure stops it.  In every schedule the service is called for
the first items only, one after another, which cuts the batch in two.  The items before the cut end
in their own way, those behind it are cancelled, and none is cancelled unless an item before the cut
failed (`AbortsAt`).  No call comes after a failure, and an item that is under way at the failure is
answered as if nothing had happened.

If only one item may be under way at a time, nothing of the schedule is left to be seen: the
outcomes are those of a loop that stops at the first failure (`oneByOne`).  The program keeps all
of this for every service (`Batch.abort_discipline`).
-/

namespace ApiCanon

/-- The outcomes of a batch that is cut behind its first `k` items: those are not cancelled and the
others are, which takes a failure among the items before each of them. -/
structure AbortsAt (k : Nat) (outcomes : List ItemOutcome) : Prop where
  inside : k ≤ outcomes.length
  cancelled : ∀ (n : Nat) (o : ItemOutcome), outcomes[n]? = some o →
    (o.status = .cancelled ↔ k ≤ n)
  failed : ∀ (n : Nat) (o : ItemOutcome), outcomes[n]? = some o → o.status = .cancelled →
    ∃ m < n, ∃ p : ItemOutcome, outcomes[m]? = some p ∧ p.status = .failed

/-- What becomes of items that are processed one by one until one of them fails: the rest is
cancelled. -/
def oneByOne : List (BatchItem × Except ServiceError ServiceResponse) → List ItemOutcome
  | [] => []
  | (i, .ok response) :: rest => .of i (.answered response) :: oneByOne rest
  | (i, .error error) :: rest =>
    .of i (.failed error) :: rest.map fun p => .of p.1 .cancelled

namespace Run

variable {b : Batch} {r r' : Run} {s : Step} {k : Nat}

/-! ## The outcomes of a run that is over -/

lemma Underway.length_outcomes (h : Underway b r) (finished : r.isOver = true) :
    r.outcomes.length = b.items.length :=
  (h.outcomes_eq finished).length_eq.symm

/-- The outcomes are what is done. -/
lemma Underway.mem_done_iff (h : Underway b r) (finished : r.isOver = true) {n : Nat}
    {o : ItemOutcome} : (n, o) ∈ r.done ↔ r.outcomes[n]? = some o := by
  refine ⟨h.getElem?_outcomes finished, fun outcome => ?_⟩
  have inside := (List.getElem?_eq_some_iff.1 outcome).1
  rw [h.length_outcomes finished] at inside
  have taken : n ∈ r.done.map (·.1) := (h.done_perm finished).mem_iff.2 (List.mem_range.2 inside)
  obtain ⟨⟨_, p⟩, ended, rfl⟩ := List.mem_map.1 taken
  obtain rfl := Option.some.inj ((h.getElem?_outcomes finished ended).symm.trans outcome)
  exact ended

lemma Underway.exists_outcome (h : Underway b r) (finished : r.isOver = true) {n : Nat}
    {i : BatchItem} (item : b.items[n]? = some i) : ∃ e, r.outcomes[n]? = some (.of i e) := by
  obtain ⟨inside, here⟩ := List.getElem?_eq_some_iff.1 item
  have inside' : n < r.outcomes.length := by rwa [h.length_outcomes finished]
  obtain ⟨e, outcome⟩ := (List.forall₂_iff_get.1 (h.outcomes_eq finished)).2 n inside inside'
  rw [List.get_eq_getElem, List.get_eq_getElem, here] at outcome
  exact ⟨e, List.getElem?_eq_some_iff.2 ⟨inside', outcome⟩⟩

/-- A run that is over has cancelled what is behind the cut. -/
theorem Cut.abortsAt (cut : Cut k r) (h : Underway b r) (finished : r.isOver = true) :
    AbortsAt k r.outcomes := by
  have ended : ∀ {n o}, r.outcomes[n]? = some o → (n, o) ∈ r.done :=
    (h.mem_done_iff finished).2
  refine ⟨?_, fun n o outcome => cut.cancelled _ (ended outcome), fun n o outcome cancelled => ?_⟩
  · rw [h.length_outcomes finished]
    exact Nat.le_trans cut.inside h.next
  · have stopped := h.cancelled _ (ended outcome) (Ending.status_eq_cancelled_iff.1 cancelled)
    obtain ⟨⟨m, p⟩, hp, failed⟩ := cut.stopped stopped
    have before : m < k := by
      by_contra behind
      have cancelled := (cut.cancelled _ hp).2 (Nat.not_lt.1 behind)
      exact ItemStatus.noConfusion (failed.symm.trans cancelled)
    have behind := (cut.cancelled _ (ended outcome)).1 cancelled
    exact ⟨m, Nat.lt_of_lt_of_le before behind, p, (h.mem_done_iff finished).1 hp, failed⟩

/-! ## One item at a time -/

/-- How a run stands that works on one item at a time: the last item that the service has been
called for is the only one that can be under way, and the only one that can have failed. -/
structure Single (k : Nat) (r : Run) : Prop where
  active : ∀ p ∈ r.active, p.1 + 1 = k
  failed : ∀ p ∈ r.done, p.2.status = .failed → r.stopped = true ∧ p.1 + 1 = k

lemma start_single (b : Batch) : Single 0 (start b) := ⟨nofun, nofun⟩

theorem Single.moves (single : Single k r) (cut : Cut k r) (m : Moves r s r')
    (alone : r.options.maxConcurrency = 1) (abort : r.options.failureStrategy = .abort) :
    Single (k + (r.called s).length) r' := by
  cases m with
  | @launch i rest waiting room going =>
    have none : r.active = [] := by
      rw [alone] at room
      exact List.length_eq_zero_iff.1 (Nat.lt_one_iff.1 room)
    rw [called_of_going going, List.length_singleton]
    refine ⟨fun p hp => ?_, fun p hp failed => ?_⟩
    · have last : p ∈ [(r.next, i)] := by simpa [Run.launch, none] using hp
      rw [List.mem_singleton.1 last, cut.going going]
    · exact absurd (going.symm.trans (single.failed p hp failed).1) Bool.false_ne_true
  | dismiss waiting room stopped =>
    rw [called_of_stopped stopped]
    refine ⟨single.active, fun p hp failed => ?_⟩
    rcases List.mem_append.1 hp with hp | hp
    · exact single.failed p hp failed
    · rw [List.mem_singleton.1 hp] at failed
      cases failed
  | @finish number i answer active =>
    refine ⟨fun p hp => single.active p (List.mem_filter.1 hp).1, fun p hp failed => ?_⟩
    rcases List.mem_append.1 hp with hp | hp
    · obtain ⟨stopped, last⟩ := single.failed p hp failed
      exact ⟨Bool.or_eq_true_iff.2 (.inl stopped), last⟩
    · rw [List.mem_singleton.1 hp] at failed ⊢
      have stops : (r.options.failureStrategy == .abort && (Ending.ofResult answer).isFailure) =
          true := by
        have failure : (Ending.ofResult answer).isFailure = true :=
          (Ending.isFailure_iff _).2 failed
        rw [abort, failure]
        rfl
      exact ⟨Bool.or_eq_true_iff.2 (.inr stops), single.active _ (mem_of_lookup active)⟩

theorem Single.follow (single : Single k r) (cut : Cut k r) (h : Underway b r)
    (alone : b.options.maxConcurrency = 1) (abort : b.options.failureStrategy = .abort)
    {steps : List Step} (run : r.follow? steps = some r') :
    Single (k + (r.calls steps).length) r' := by
  induction steps generalizing r k with
  | nil => exact Option.some.inj run ▸ single
  | cons s rest ih =>
    obtain ⟨next, step, run⟩ := Option.bind_eq_some_iff.1 run
    have moves := step?_eq_some_iff.1 step
    have here := single.moves cut moves (h.options ▸ alone) (h.options ▸ abort)
    rw [calls_cons moves, List.length_append, ← Nat.add_assoc]
    exact ih here (cut.moves h moves).2 (h.moves moves) run

/-- The answers that a schedule gives to the items. -/
def Answers (steps : List Step) (answers : Nat → Except ServiceError ServiceResponse) : Prop :=
  ∀ number answer, .complete number answer ∈ steps → answers number = answer

lemma Underway.exists_answers (h : Underway b r') {steps : List Step}
    (run : r.follow? steps = some r') : ∃ answers, Answers steps answers := by
  have each : ∀ number, ∃ answer, ∀ other, .complete number other ∈ steps → answer = other := by
    intro number
    by_cases answered : ∃ answer, .complete number answer ∈ steps
    · obtain ⟨answer, given⟩ := answered
      exact ⟨answer, fun other again => h.answer_unique run given again⟩
    · exact ⟨.error default, fun other given => absurd ⟨other, given⟩ answered⟩
  exact Classical.skolem.1 each

/-- Where a loop stops that stops at the first failure. -/
lemma oneByOne_eq (k : Nat) {l : List (BatchItem × Except ServiceError ServiceResponse)}
    (going : ∀ n p, l[n]? = some p → n + 1 < k → (Ending.ofResult p.2).status ≠ .failed)
    (stops : k < l.length →
      ∃ n p, l[n]? = some p ∧ n + 1 = k ∧ (Ending.ofResult p.2).status = .failed) :
    oneByOne l = l.mapIdx fun n p => .of p.1 (if n < k then .ofResult p.2 else .cancelled) := by
  induction l generalizing k with
  | nil => rfl
  | cons p rest ih =>
    obtain ⟨i, answer⟩ := p
    cases k with
    | zero =>
      obtain ⟨n, -, -, last, -⟩ := stops (Nat.succ_pos _)
      cases last
    | succ k =>
      cases answer with
      | ok response =>
        have others := ih k (fun n p here before => going (n + 1) p here (Nat.succ_lt_succ before))
          fun more => by
            obtain ⟨_ | n, p, here, last, failed⟩ := stops (Nat.succ_lt_succ more)
            · rw [← Option.some.inj here] at failed
              cases failed
            · exact ⟨n, p, here, Nat.succ.inj last, failed⟩
        rw [oneByOne, others, List.mapIdx_cons]
        simp [Ending.ofResult]
      | error error =>
        have first : k = 0 := by
          by_contra later
          exact going 0 _ rfl (by omega) rfl
        have others : rest.map (fun p => ItemOutcome.of p.1 .cancelled) =
            rest.mapIdx fun _ p => ItemOutcome.of p.1 .cancelled :=
          List.ext_getElem? fun n => by simp
        rw [oneByOne, List.mapIdx_cons, first, others]
        simp [Ending.ofResult]

/-- A run that works on one item at a time has the outcomes of the loop. -/
theorem Single.outcomes_eq (single : Single k r) (cut : Cut k r) (h : Underway b r)
    (finished : r.isOver = true) {answers : Nat → Except ServiceError ServiceResponse}
    (told : ∀ n < k, ∃ i, b.items[n]? = some i ∧
      r.outcomes[n]? = some (.of i (.ofResult (answers n)))) :
    r.outcomes = oneByOne (b.items.mapIdx fun n i => (i, answers n)) := by
  have aborts := cut.abortsAt h finished
  have inside : k ≤ b.items.length := Nat.le_trans cut.inside h.next
  have failed : ∀ n i, r.outcomes[n]? = some (.of i (.ofResult (answers n))) →
      (Ending.ofResult (answers n)).status = .failed → n + 1 = k := fun n i outcome failed =>
    (single.failed _ ((h.mem_done_iff finished).2 outcome) failed).2
  rw [oneByOne_eq k]
  · refine List.ext_getElem? fun n => ?_
    rw [List.getElem?_mapIdx, List.getElem?_mapIdx, Option.map_map]
    cases item : b.items[n]? with
    | none =>
      rw [List.getElem?_eq_none_iff, ← h.length_outcomes finished] at item
      exact List.getElem?_eq_none_iff.2 item
    | some i =>
      by_cases before : n < k
      · obtain ⟨j, item', outcome⟩ := told n before
        obtain rfl := Option.some.inj (item.symm.trans item')
        simpa [before] using outcome
      · obtain ⟨e, outcome⟩ := h.exists_outcome finished item
        have cancelled := (aborts.cancelled n _ outcome).2 (Nat.not_lt.1 before)
        obtain rfl : e = .cancelled := Ending.status_eq_cancelled_iff.1 cancelled
        simpa [before] using outcome
  · intro n p here before failure
    obtain ⟨i, item, outcome⟩ := told n (by omega)
    obtain rfl : (i, answers n) = p := by simpa [item] using here
    exact absurd (failed n i outcome failure) (Nat.ne_of_lt before)
  · -- the item behind the cut has been cancelled, so one before it failed
    intro more
    rw [List.length_mapIdx] at more
    obtain ⟨e, outcome⟩ := h.exists_outcome finished (List.getElem?_eq_getElem more)
    have cancelled := (aborts.cancelled k _ outcome).2 (Nat.le_refl k)
    obtain ⟨n, before, p, outcome', failure⟩ := aborts.failed k _ outcome cancelled
    obtain ⟨i, item, outcome⟩ := told n before
    obtain rfl := Option.some.inj (outcome'.symm.trans outcome)
    exact ⟨n, (i, answers n), by simp [item], failed n i outcome failure, failure⟩

end Run

/-! ## The schedule of a service -/

namespace Timeline

open Run (Step Moves Underway)

variable {service : Service} {b : Batch} {t u : Timeline}

/-- An item under way will be answered what the work on it comes to. -/
def Promises (service : Service) (b : Batch) (t : Timeline) : Prop :=
  ∀ a ∈ t.appointments, ∃ i, b.items[a.number]? = some i ∧
    (workOn service b.options i).result = a.answer

/-- A step answers an item what the work on it comes to. -/
def Keeps (service : Service) (b : Batch) (s : Step) : Prop :=
  ∀ number answer, s = .complete number answer → ∃ i, b.items[number]? = some i ∧
    (workOn service b.options i).result = answer

/-- An event takes an item up or keeps an appointment. -/
lemma advance?_cases (h : t.advance? service = some u) :
    t.takeUp? service = some u ∨ ∃ a ∈ t.appointments, t.finish? a = some u := by
  unfold advance? at h
  split at h
  · exact Or.inl h
  · next a first =>
    have kept : t.finish? a = some u → ∃ a ∈ t.appointments, t.finish? a = some u :=
      fun h => ⟨a, mem_of_earliest? first, h⟩
    split_ifs at h
    · exact Or.inr (kept h)
    · cases taken : t.takeUp? service with
      | some v =>
        rw [taken] at h
        exact Or.inl h
      | none =>
        rw [taken] at h
        exact Or.inr (kept h)

lemma takeUp?_promises (h : t.takeUp? service = some u) (underway : Underway b t.run)
    (promises : t.Promises service b) :
    u.calls = t.calls + (t.run.called .takeUp).length ∧ u.Promises service b := by
  unfold takeUp? at h
  split at h
  · cases h
  · next i rest waiting =>
    obtain ⟨run, step, rfl⟩ := Option.map_eq_some_iff.1 h
    by_cases stopped : t.run.stopped = true
    · simp only [stopped, Run.called]
      exact ⟨rfl, promises⟩
    · simp only [stopped, Run.called]
      refine ⟨rfl, fun a ha => ?_⟩
      rcases List.mem_append.1 ha with ha | ha
      · exact promises a ha
      · rw [List.mem_singleton.1 ha, underway.options]
        exact ⟨i, (underway.getElem?_next waiting).1, rfl⟩

lemma finish?_promises {a : Appointment} (h : t.finish? a = some u)
    (promises : t.Promises service b) : u.calls = t.calls ∧ u.Promises service b := by
  obtain ⟨run, -, rfl⟩ := Option.map_eq_some_iff.1 h
  exact ⟨rfl, fun c hc => promises c (List.mem_filter.1 hc).1⟩

/-- The calls that are counted are those of the moves, and all answers are those of the service. -/
lemma advance?_promises (h : t.advance? service = some u) (booked : t.Booked)
    (underway : Underway b t.run) (promises : t.Promises service b) :
    ∃ s, Moves t.run s u.run ∧ u.calls = t.calls + (t.run.called s).length ∧
      Keeps service b s ∧ u.Booked ∧ u.Promises service b := by
  rcases advance?_cases h with taken | ⟨a, ha, ended⟩
  · obtain ⟨moves, booked⟩ := takeUp?_moves taken booked
    obtain ⟨calls, promises⟩ := takeUp?_promises taken underway promises
    exact ⟨_, moves, calls, nofun, booked, promises⟩
  · obtain ⟨moves, booked⟩ := finish?_moves ended booked
    obtain ⟨calls, others⟩ := finish?_promises ended promises
    refine ⟨_, moves, calls, ?_, booked, others⟩
    rintro _ _ ⟨⟩
    exact promises a ha

lemma advance_promises (booked : t.Booked) (underway : Underway b t.run)
    (promises : t.Promises service b) (fuel : Nat) :
    ∃ steps, t.run.follow? steps = some (advance service fuel t).run ∧
      (advance service fuel t).calls = t.calls + (t.run.calls steps).length ∧
      ∀ s ∈ steps, Keeps service b s := by
  induction fuel generalizing t with
  | zero => exact ⟨[], rfl, rfl, nofun⟩
  | succ fuel ih =>
    cases event : t.advance? service with
    | none =>
      rw [advance, event]
      exact ⟨[], rfl, rfl, nofun⟩
    | some u =>
      rw [advance, event]
      obtain ⟨s, moves, calls, keeps, booked, promises⟩ :=
        advance?_promises event booked underway promises
      obtain ⟨steps, run, more, others⟩ := ih booked (underway.moves moves) promises
      refine ⟨s :: steps, ?_, ?_, List.forall_mem_cons.2 ⟨keeps, others⟩⟩
      · rw [Run.follow?_cons, Run.step?_eq_some_iff.2 moves]
        exact run
      · rw [more, calls, Run.calls_cons moves, List.length_append, Nat.add_assoc]

/-- The run that a service makes of a batch follows a schedule with as many calls to the service as
are counted, and with the answers of the service. -/
theorem complete_promises (service : Service) (b : Batch) :
    ∃ steps, (Run.start b).follow? steps = some (complete service b).run ∧
      (complete service b).calls = ((Run.start b).calls steps).length ∧
      ∀ s ∈ steps, Keeps service b s := by
  have booked : (start b).Booked := rfl
  have promises : (start b).Promises service b := nofun
  obtain ⟨steps, run, calls, keeps⟩ :=
    advance_promises booked (Run.start_underway b) promises (2 * b.items.length)
  exact ⟨steps, run, calls.trans (Nat.zero_add _), keeps⟩

end Timeline

/-! ## The discipline -/

namespace Run

/-- What is seen of a schedule of a batch that is aborted. -/
structure AbortsInOrder (b : Batch) (steps : List Step) (r : Run) : Prop where
  /-- The service is called for the first items, in the order of submission. -/
  order : (start b).calls steps = List.range ((start b).calls steps).length
  /-- It is called for none after a failure. -/
  quiet : ∀ before number error after, steps = before ++ .complete number (.error error) :: after →
    (start b).calls steps = (start b).calls before
  /-- All the other items are cancelled, after a failure of an item before them. -/
  outcomes : r.isOver = true → AbortsAt ((start b).calls steps).length r.outcomes
  /-- An item that is under way at some time is answered later, and that is its outcome. -/
  underway : r.isOver = true → ∀ before after mid number i, steps = before ++ after →
    (start b).follow? before = some mid → (number, i) ∈ mid.active →
    ∃ answer, .complete number answer ∈ after ∧
      r.outcomes[number]? = some (.of i (.ofResult answer))
  /-- With one item at a time, the outcomes are those of a loop over the answers. -/
  alone : r.isOver = true → b.options.maxConcurrency = 1 → (∃ answers, Answers steps answers) ∧
    ∀ answers, Answers steps answers →
      r.outcomes = oneByOne (b.items.mapIdx fun n i => (i, answers n))

variable {b : Batch} {r : Run}

/-- An item that the service is called for has the outcome that it is answered. -/
lemma outcome_of_called {steps : List Step} (run : (start b).follow? steps = some r)
    (finished : r.isOver = true) {answers : Nat → Except ServiceError ServiceResponse}
    (given : Answers steps answers) {n : Nat} (h : n ∈ (start b).calls steps) :
    ∃ i, b.items[n]? = some i ∧ r.outcomes[n]? = some (.of i (.ofResult (answers n))) := by
  obtain ⟨answer, answered⟩ := exists_complete_of_called run finished h
  rw [given n answer answered]
  exact ((start_underway b).follow run).outcome_of_complete finished run answered

theorem abortsInOrder_of_follow? (abort : b.options.failureStrategy = .abort) {steps : List Step}
    (run : (start b).follow? steps = some r) : AbortsInOrder b steps r := by
  have stands := (start_underway b).follow run
  obtain ⟨order, cut⟩ := (start_cut b).follow (start_underway b) run
  rw [← List.range_eq_range'] at order
  rw [Nat.zero_add] at cut
  refine ⟨order, ?_, cut.abortsAt stands, ?_, ?_⟩
  · rintro before number error after rfl
    exact (start_underway b).calls_of_failure abort run
  · rintro finished before after mid number i rfl first active
    rw [follow?_append, first] at run
    obtain ⟨answer, answered⟩ := exists_complete_of_active run finished active
    obtain ⟨j, item, outcome⟩ := stands.outcome_of_complete finished run answered
    have item' := ((start_underway b).follow first).active _ active
    obtain rfl : i = j := Option.some.inj (item'.symm.trans item)
    exact ⟨answer, answered, outcome⟩
  · intro finished alone
    have single := (start_single b).follow (start_cut b) (start_underway b) alone abort run
    rw [Nat.zero_add] at single
    refine ⟨stands.exists_answers run, fun answers given => ?_⟩
    refine single.outcomes_eq cut stands finished fun n before => ?_
    exact outcome_of_called run finished given (order ▸ List.mem_range.2 before)

end Run

namespace Batch

/-- **Abort discipline.**  Under the strategy to abort, every schedule of a valid batch calls the
service for its first items only and never after a failure, lets the items under way end in their
own way, and cancels exactly the rest, provided that an item before it failed.  What a service makes
of the batch follows such a schedule to its end, is cut behind as many items as there have been
calls, and with one item at a time is what a loop over the items makes of them. -/
theorem abort_discipline {items : List BatchItem} {options : BatchOptions} {b : Batch}
    (h : make items options = .ok b) (abort : options.failureStrategy = .abort) :
    (∀ steps r, (Run.start b).follow? steps = some r → Run.AbortsInOrder b steps r) ∧
    ∀ service, (∃ steps, (Run.start b).follow? steps = some (Timeline.complete service b).run ∧
        (Timeline.complete service b).calls = ((Run.start b).calls steps).length) ∧
      AbortsAt (Timeline.complete service b).calls (b.run service).outcomes ∧
      (options.maxConcurrency = 1 → (b.run service).outcomes =
        oneByOne (items.map fun i => (i, (Timeline.workOn service options i).result))) := by
  obtain ⟨rfl, rfl, room⟩ := make_eq_ok h
  refine ⟨fun steps r run => Run.abortsInOrder_of_follow? abort run, fun service => ?_⟩
  obtain ⟨steps, run, calls, keeps⟩ := Timeline.complete_promises service b
  have finished := (Timeline.complete_follows service room).2
  have disciplined := Run.abortsInOrder_of_follow? abort run
  refine ⟨⟨steps, run, calls⟩, calls ▸ disciplined.outcomes finished, fun alone => ?_⟩
  let answers : Nat → Except ServiceError ServiceResponse := fun n =>
    (b.items[n]?.map fun i => (Timeline.workOn service b.options i).result).getD (.error default)
  have given : Run.Answers steps answers := by
    intro number answer answered
    obtain ⟨i, item, result⟩ := keeps _ answered number answer rfl
    simp [answers, item, result]
  have loop : b.items.mapIdx (fun n i => (i, answers n)) =
      b.items.map fun i => (i, (Timeline.workOn service b.options i).result) := by
    refine List.ext_getElem? fun n => ?_
    cases item : b.items[n]? <;> simp [item, answers]
  exact ((disciplined.alone finished alone).2 answers given).trans (congrArg oneByOne loop)

/-- The third letter is cancelled after the second one has failed, the first one is not. -/
theorem abort_discipline_secondFails :
    ∃ b, make letters twoAtATime = .ok b ∧ (Run.start b).calls secondFails = [0, 1] ∧
      AbortsAt 2 afterSecondFails.outcomes := by
  let b : Batch := ⟨contentId "batch" (Bytes.ofString (fingerprint letters)), letters, twoAtATime⟩
  have made : make letters twoAtATime = .ok b := rfl
  have run : (Run.start b).follow? secondFails = some afterSecondFails := rfl
  have disciplined := (abort_discipline made rfl).1 secondFails afterSecondFails run
  exact ⟨b, made, rfl, disciplined.outcomes rfl⟩

end Batch

end ApiCanon
