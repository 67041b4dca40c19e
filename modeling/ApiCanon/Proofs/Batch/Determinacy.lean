import ApiCanon.Proofs.Batch.Aborts

/-!
# Batches that are carried on with

What becomes of a batch that no failure stops depends on nothing but what its requests are answered
(`Batch.ledger_determined`): not on how many items may be under way, not on the order in which they
end, not on how long they take.  The ledger is that of a loop over the items, each of which is
answered on its own (`Ledger.itemByItem`).

An outcome stands under the number of its item, and it is either the answer of the step that ended
the item (`Run.complete_of_mem_done`) or a cancellation, of which there are none.  Whatever has been
answered so far, there is a schedule that goes on with the same answers and comes to an end
(`Run.Underway.exists_rest`).
-/

namespace ApiCanon

/-- What a batch comes to if each item is answered on its own, one after another. -/
def Ledger.itemByItem (answer : ServiceRequest → Except ServiceError ServiceResponse)
    (b : Batch) : Ledger :=
  ⟨b.id, b.options.failureStrategy, b.items.map fun i => .of i (.ofResult (answer i.request))⟩

namespace Run

variable {b : Batch} {r r' : Run} {s : Step}
  {answer : ServiceRequest → Except ServiceError ServiceResponse}

/-- A step answers an item what is answered to its request. -/
def Heeds (answer : ServiceRequest → Except ServiceError ServiceResponse) (b : Batch)
    (s : Step) : Prop :=
  ∀ number result i, s = .complete number result → b.items[number]? = some i →
    answer i.request = result

/-! ## Where outcomes come from -/

/-- What a move adds to what is done is a cancellation or the answer that it is given. -/
lemma Moves.mem_done (m : Moves r s r') {p : Nat × ItemOutcome} (hp : p ∈ r'.done) :
    p ∈ r.done ∨ p.2.ending = .cancelled ∨
      ∃ result, s = .complete p.1 result ∧ p.2.ending = .ofResult result := by
  cases m with
  | launch => exact Or.inl hp
  | dismiss =>
    rcases List.mem_append.1 hp with hp | hp
    · exact Or.inl hp
    · rw [List.mem_singleton.1 hp]
      exact Or.inr (Or.inl rfl)
  | finish result active =>
    rcases List.mem_append.1 hp with hp | hp
    · exact Or.inl hp
    · rw [List.mem_singleton.1 hp]
      exact Or.inr (Or.inr ⟨result, rfl, rfl⟩)

/-- An item that has ended without being cancelled was answered in the schedule. -/
lemma complete_of_mem_done {steps : List Step} (run : r.follow? steps = some r')
    {p : Nat × ItemOutcome} (hp : p ∈ r'.done) (going : p.2.ending ≠ .cancelled) :
    p ∈ r.done ∨ ∃ result, .complete p.1 result ∈ steps ∧ p.2.ending = .ofResult result := by
  induction steps generalizing r with
  | nil =>
    rw [Option.some.inj run]
    exact Or.inl hp
  | cons s rest ih =>
    obtain ⟨next, step, run⟩ := Option.bind_eq_some_iff.1 run
    rcases ih run with before | ⟨result, answered, ending⟩
    · rcases (step?_eq_some_iff.1 step).mem_done before with earlier | cancelled | here
      · exact Or.inl earlier
      · exact absurd cancelled going
      · obtain ⟨result, rfl, ending⟩ := here
        exact Or.inr ⟨result, List.mem_cons_self, ending⟩
    · exact Or.inr ⟨result, List.mem_cons_of_mem s answered, ending⟩

/-- **The ledger is that of the items one by one**, whatever the schedule is. -/
theorem ledger_eq_itemByItem (strategy : b.options.failureStrategy = .carryOn) {steps : List Step}
    (run : (start b).follow? steps = some r) (finished : r.isOver = true)
    (heeds : ∀ s ∈ steps, Heeds answer b s) : r.ledger b.id = .itemByItem answer b := by
  have stands := (start_underway b).follow run
  have outcomes : r.outcomes = b.items.map fun i => .of i (.ofResult (answer i.request)) := by
    refine List.ext_getElem? fun n => ?_
    rw [List.getElem?_map]
    cases item : b.items[n]? with
    | none =>
      rw [List.getElem?_eq_none_iff, ← stands.length_outcomes finished] at item
      exact List.getElem?_eq_none_iff.2 item
    | some i =>
      obtain ⟨e, outcome⟩ := stands.exists_outcome finished item
      have ended := (stands.mem_done_iff finished).2 outcome
      have going : e ≠ .cancelled := fun cancelled =>
        stands.not_cancelled strategy _ ended (Ending.status_eq_cancelled_iff.2 cancelled)
      obtain ⟨result, answered, rfl⟩ :=
        (complete_of_mem_done run ended going).resolve_left List.not_mem_nil
      rw [outcome, Option.map_some, heeds _ answered n result i rfl item]
  rw [ledger, outcomes, stands.options, Ledger.itemByItem]

/-! ## Schedules can be completed -/

/-- As long as a run is not over it can go on with an answer that is heeded. -/
lemma Underway.exists_heeding (h : Underway b r) (room : 1 ≤ b.options.maxConcurrency)
    (unfinished : r.isOver = false)
    (answer : ServiceRequest → Except ServiceError ServiceResponse) :
    ∃ s r', Moves r s r' ∧ Heeds answer b s := by
  have possible : ¬∀ s, r.step? s = none := fun stuck => by
    rw [(isOver_iff_stuck (h.options ▸ room)).2 stuck] at unfinished
    cases unfinished
  obtain ⟨s, step⟩ := not_forall.1 possible
  obtain ⟨r', step⟩ := Option.ne_none_iff_exists'.1 step
  have moves := step?_eq_some_iff.1 step
  cases moves with
  | launch waiting room going => exact ⟨_, _, .launch waiting room going, nofun⟩
  | dismiss waiting room stopped => exact ⟨_, _, .dismiss waiting room stopped, nofun⟩
  | @finish number i _ active =>
    -- the item may as well end with the answer to its request
    refine ⟨_, _, .finish (answer i.request) active, ?_⟩
    rintro _ _ j ⟨⟩ item
    obtain rfl : i = j := Option.some.inj ((h.active _ (mem_of_lookup active)).symm.trans item)
    rfl

/-- Every run can be brought to its end with answers that are heeded. -/
theorem Underway.exists_rest (h : Underway b r) (room : 1 ≤ b.options.maxConcurrency)
    (answer : ServiceRequest → Except ServiceError ServiceResponse) :
    ∃ steps r', r.follow? steps = some r' ∧ r'.isOver = true ∧ ∀ s ∈ steps, Heeds answer b s := by
  generalize left : r.remaining = n
  induction n using Nat.strongRecOn generalizing r with
  | ind n ih =>
    cases unfinished : r.isOver with
    | true => exact ⟨[], r, rfl, unfinished, nofun⟩
    | false =>
      obtain ⟨s, next, moves, first⟩ := h.exists_heeding room unfinished answer
      obtain ⟨steps, r', run, finished, others⟩ :=
        ih _ (left ▸ remaining_lt moves) (h.moves moves) rfl
      refine ⟨s :: steps, r', ?_, finished, List.forall_mem_cons.2 ⟨first, others⟩⟩
      rw [follow?_cons, step?_eq_some_iff.2 moves]
      exact run

end Run

/-! ## The schedule of a service -/

/-- A service answers the requests of a batch in a certain way and always in time. -/
structure Service.Delivers (service : Service)
    (answer : ServiceRequest → Except ServiceError ServiceResponse) (b : Batch) : Prop where
  answers : ∀ i ∈ b.items, (service i.request).result = answer i.request
  inTime : ∀ limit, b.options.itemTimeout = some limit →
    ∀ i ∈ b.items, (service i.request).duration.nanos ≤ limit.nanos

namespace Timeline

variable {service : Service} {b : Batch}
  {answer : ServiceRequest → Except ServiceError ServiceResponse}

/-- Work that is done in time comes to what the service answers. -/
lemma result_workOn (delivers : service.Delivers answer b) {i : BatchItem} (hi : i ∈ b.items) :
    (workOn service b.options i).result = answer i.request := by
  rw [workOn, itemWithin, ← delivers.answers i hi]
  cases limit : b.options.itemTimeout with
  | none => rw [Work.within_none]
  | some limit' => rw [Work.within_of_le (delivers.inTime limit' limit i hi)]

lemma Keeps.heeds {s : Run.Step} (keeps : Keeps service b s)
    (delivers : service.Delivers answer b) : Run.Heeds answer b s := by
  intro number result i answered item
  obtain ⟨j, item', promised⟩ := keeps number result answered
  obtain rfl := Option.some.inj (item.symm.trans item')
  rw [← result_workOn delivers (List.mem_of_getElem? item), promised]

end Timeline

namespace Batch

variable {items : List BatchItem} {o o' : BatchOptions} {b b' : Batch}

/-- Batches of the same items bear the same identifier. -/
lemma id_eq_of_make (h : make items o = .ok b) (h' : make items o' = .ok b') : b.id = b'.id := by
  have named : ∀ {o : BatchOptions} {b : Batch}, make items o = .ok b →
      b.id = contentId "batch" (Bytes.ofString (fingerprint items)) := by
    intro o b made
    unfold make at made
    split_ifs at made
    split at made
    · cases made
    · rw [← Except.ok.inj made]
  rw [named h, named h']

/-- **The ledger does not depend on the schedule.**  Let the same items be processed in two batches
that carry on after failures, with whatever numbers of items under way, and let requests be answered
in a way that depends on nothing but the request.  Then any two schedules that are over have the
same ledger, that of the items one by one; every schedule so far can be brought to its end with
these answers; and so the ledgers that two services bring about are the same, if they answer so and
in time. -/
theorem ledger_determined (h : make items o = .ok b) (h' : make items o' = .ok b')
    (strategy : o.failureStrategy = .carryOn) (strategy' : o'.failureStrategy = .carryOn)
    (answer : ServiceRequest → Except ServiceError ServiceResponse) :
    (∀ steps steps' r r', (Run.start b).follow? steps = some r →
      (Run.start b').follow? steps' = some r' →
      (∀ s ∈ steps, Run.Heeds answer b s) → (∀ s ∈ steps', Run.Heeds answer b' s) →
      r.isOver = true → r'.isOver = true →
        r.ledger b.id = r'.ledger b'.id ∧ r.ledger b.id = .itemByItem answer b) ∧
    (∀ steps r, (Run.start b).follow? steps = some r → (∀ s ∈ steps, Run.Heeds answer b s) →
      ∃ rest r', (Run.start b).follow? (steps ++ rest) = some r' ∧ r'.isOver = true ∧
        ∀ s ∈ steps ++ rest, Run.Heeds answer b s) ∧
    ∀ service service' : Service, service.Delivers answer b → service'.Delivers answer b' →
      b.run service = b'.run service' ∧ b.run service = .itemByItem answer b := by
  have same : Ledger.itemByItem answer b = .itemByItem answer b' := by
    rw [Ledger.itemByItem, Ledger.itemByItem, id_eq_of_make h h', (make_eq_ok h).1,
      (make_eq_ok h').1, (make_eq_ok h).2.1, (make_eq_ok h').2.1, strategy, strategy']
  obtain ⟨-, rfl, room⟩ := make_eq_ok h
  obtain ⟨-, rfl, room'⟩ := make_eq_ok h'
  have served : ∀ {b : Batch} {service : Service}, 1 ≤ b.options.maxConcurrency →
      b.options.failureStrategy = .carryOn → service.Delivers answer b →
      b.run service = .itemByItem answer b := by
    intro b service room strategy delivers
    obtain ⟨steps, run, -, keeps⟩ := Timeline.complete_promises service b
    exact Run.ledger_eq_itemByItem strategy run (Timeline.complete_follows service room).2
      fun s hs => (keeps s hs).heeds delivers
  refine ⟨fun steps steps' r r' run run' heeds heeds' finished finished' => ?_,
    fun steps r run heeds => ?_, fun service service' delivers delivers' => ?_⟩
  · have here := Run.ledger_eq_itemByItem strategy run finished heeds
    have there := Run.ledger_eq_itemByItem strategy' run' finished' heeds'
    exact ⟨here.trans (same.trans there.symm), here⟩
  · obtain ⟨rest, r', more, finished, others⟩ :=
      ((Run.start_underway b).follow run).exists_rest room answer
    refine ⟨rest, r', ?_, finished, fun s hs => ?_⟩
    · rw [Run.follow?_append, run]
      exact more
    · exact (List.mem_append.1 hs).elim (heeds s) (others s)
  · have here := served room strategy delivers
    have there := served room' strategy' delivers'
    exact ⟨here.trans (same.trans there.symm), here⟩

/-- Who answers all requests but those to validate. -/
def noValidation (request : ServiceRequest) : Except ServiceError ServiceResponse :=
  if request.kind = .validate then .error default else .ok default

/-- Three items at a time, which end in another order than they were submitted in. -/
def threeAtATime : BatchOptions := ⟨3, .carryOn, some ⟨1⟩⟩

def lastFirst : List Run.Step :=
  [.takeUp, .takeUp, .takeUp, .complete 2 (.ok default), .complete 0 (.ok default),
    .complete 1 (.error default)]

/-- One item at a time. -/
def oneAtATime : BatchOptions := ⟨1, .carryOn, none⟩

def inTurn : List Run.Step :=
  [.takeUp, .complete 0 (.ok default), .takeUp, .complete 1 (.error default), .takeUp,
    .complete 2 (.ok default)]

theorem ledger_determined_lastFirst :
    ∃ b b' r r', make letters threeAtATime = .ok b ∧ make letters oneAtATime = .ok b' ∧
      (Run.start b).follow? lastFirst = some r ∧ (Run.start b').follow? inTurn = some r' ∧
      r.isOver = true ∧ r'.isOver = true ∧
      (∀ s ∈ lastFirst, Run.Heeds noValidation b s) ∧
      (∀ s ∈ inTurn, Run.Heeds noValidation b' s) ∧
      r.done.map (·.1) = [2, 0, 1] ∧ r'.done.map (·.1) = [0, 1, 2] ∧
      r.ledger b.id = r'.ledger b'.id ∧
      (r.ledger b.id).outcomes.map (·.status) = [.success, .failed, .success] := by
  let b : Batch := ⟨contentId "batch" (Bytes.ofString (fingerprint letters)), letters, threeAtATime⟩
  let b' : Batch := ⟨contentId "batch" (Bytes.ofString (fingerprint letters)), letters, oneAtATime⟩
  have made : make letters threeAtATime = .ok b := rfl
  have made' : make letters oneAtATime = .ok b' := rfl
  obtain ⟨r, run, finished, order⟩ : ∃ r, (Run.start b).follow? lastFirst = some r ∧
      r.isOver = true ∧ r.done.map (·.1) = [2, 0, 1] := ⟨_, rfl, rfl, rfl⟩
  obtain ⟨r', run', finished', order'⟩ : ∃ r', (Run.start b').follow? inTurn = some r' ∧
      r'.isOver = true ∧ r'.done.map (·.1) = [0, 1, 2] := ⟨_, rfl, rfl, rfl⟩
  have heeds : ∀ s ∈ lastFirst, Run.Heeds noValidation b s := by
    simp only [lastFirst, List.forall_mem_cons]
    refine ⟨nofun, nofun, nofun, ?_, ?_, ?_, nofun⟩ <;> rintro _ _ _ ⟨⟩ ⟨⟩ <;> rfl
  have heeds' : ∀ s ∈ inTurn, Run.Heeds noValidation b' s := by
    simp only [inTurn, List.forall_mem_cons]
    refine ⟨nofun, ?_, nofun, ?_, nofun, ?_, nofun⟩ <;> rintro _ _ _ ⟨⟩ ⟨⟩ <;> rfl
  obtain ⟨same, each⟩ := (ledger_determined made made' rfl rfl noValidation).1 lastFirst inTurn r r'
    run run' heeds heeds' finished finished'
  exact ⟨b, b', r, r', made, made', run, run', finished, finished', heeds, heeds', order, order',
    same, each ▸ rfl⟩

end Batch

end ApiCanon
