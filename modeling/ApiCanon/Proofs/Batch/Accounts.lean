import ApiCanon.Proofs.Batch.Schedules

/-!
# What a ledger accounts for

A ledger accounts for a batch if it has one outcome for each item, in the order of submission,
and if its counts and its status are those of the outcomes (`Ledger.Accounts`).  The ledger of every
schedule that is over accounts for the batch, and so does the one that a service brings about
(`Batch.schedule_accounts`): which items are answered how, and in which order, cannot make an item
be missing, come twice or come out of its turn.
-/

namespace ApiCanon

namespace Ledger

/-- A ledger tells what became of every item of a batch.  A batch that neither succeeded nor
succeeded in part has failed, there being no other status. -/
structure Accounts (items : List BatchItem) (strategy : FailureStrategy) (l : Ledger) : Prop where
  /-- There is one outcome for each item, in the order of submission. -/
  each : List.Forall₂ (fun i o => o.id = i.id ∧ o.kind = i.kind) items l.outcomes
  counts : l.count .success + l.count .failed + l.count .cancelled = items.length
  result : ∀ o ∈ l.outcomes, (o.toJson.get? "result").isSome = true ↔ o.status = .success
  error : ∀ o ∈ l.outcomes, (o.toJson.get? "error").isSome = true ↔ o.status = .failed
  carriedOn : strategy = .carryOn → ∀ o ∈ l.outcomes, o.status ≠ .cancelled
  success : l.status = .success ↔ ∀ o ∈ l.outcomes, o.status ≠ .failed
  partly : l.status = .partly ↔ strategy = .carryOn ∧
    (∃ o ∈ l.outcomes, o.status = .failed) ∧ ∃ o ∈ l.outcomes, o.status = .success

variable (l : Ledger)

lemma count_eq_zero_iff (s : ItemStatus) : l.count s = 0 ↔ ∀ o ∈ l.outcomes, o.status ≠ s := by
  simp [count, List.filter_eq_nil_iff]

lemma count_ne_zero_iff (s : ItemStatus) : l.count s ≠ 0 ↔ ∃ o ∈ l.outcomes, o.status = s := by
  simp [count, List.filter_eq_nil_iff]

theorem status_eq_success_iff : l.status = .success ↔ ∀ o ∈ l.outcomes, o.status ≠ .failed := by
  rw [← count_eq_zero_iff, status]
  split_ifs with none failed <;> simp [none]

theorem status_eq_partly_iff : l.status = .partly ↔ l.strategy = .carryOn ∧
    (∃ o ∈ l.outcomes, o.status = .failed) ∧ ∃ o ∈ l.outcomes, o.status = .success := by
  rw [← count_ne_zero_iff, ← count_ne_zero_iff, status]
  have strategies : l.strategy = .carryOn ↔ l.strategy ≠ .abort := by
    cases l.strategy <;> decide
  rw [strategies]
  split_ifs with none failed
  · simp [none]
  · rcases failed with abort | nothing
    · simp [abort]
    · simp [nothing]
  · obtain ⟨going, some⟩ := not_or.1 failed
    simp [none, going, some]

end Ledger

namespace ItemOutcome

/-- An outcome is written with a result exactly if the item succeeded. -/
lemma result_toJson (o : ItemOutcome) :
    (o.toJson.get? "result").isSome = true ↔ o.status = .success := by
  obtain ⟨id, kind, ending⟩ := o
  cases ending <;> simp [toJson, status, Ending.status, Json.Value.get?, Json.Fields.get?]

/-- An outcome is written with an error exactly if the item failed. -/
lemma error_toJson (o : ItemOutcome) :
    (o.toJson.get? "error").isSome = true ↔ o.status = .failed := by
  obtain ⟨id, kind, ending⟩ := o
  cases ending <;> simp [toJson, status, Ending.status, Json.Value.get?, Json.Fields.get?]

end ItemOutcome

namespace Run

variable {b : Batch} {r : Run}

/-- Without the strategy to abort nothing is cancelled, at any time. -/
lemma Underway.not_cancelled (h : Underway b r) (strategy : b.options.failureStrategy = .carryOn) :
    ∀ p ∈ r.done, p.2.status ≠ .cancelled := by
  rintro ⟨number, id, kind, ending⟩ hp cancelled
  cases ending with
  | answered response => cases cancelled
  | failed error => cases cancelled
  | cancelled =>
    have abort := h.stopped (h.cancelled _ hp rfl)
    rw [strategy] at abort
    cases abort

/-- The ledger of a run that is over accounts for the batch. -/
theorem Underway.accounts (h : Underway b r) (finished : r.isOver = true) :
    (r.ledger b.id).Accounts b.items b.options.failureStrategy where
  each := (h.outcomes_eq finished).imp fun i o outcome => by
    obtain ⟨e, rfl⟩ := outcome
    exact ⟨rfl, rfl⟩
  counts := (Ledger.total_eq _).trans (h.outcomes_eq finished).length_eq.symm
  result := fun o _ => o.result_toJson
  error := fun o _ => o.error_toJson
  carriedOn := fun strategy o ho => by
    obtain ⟨p, hp, rfl⟩ := List.mem_map.1 ho
    exact h.not_cancelled strategy p (r.sorted_perm.mem_iff.1 hp)
  success := Ledger.status_eq_success_iff _
  partly := h.options ▸ Ledger.status_eq_partly_iff _

end Run

namespace Batch

lemma make_eq_ok {items : List BatchItem} {options : BatchOptions} {b : Batch}
    (h : make items options = .ok b) :
    b.items = items ∧ b.options = options ∧ 1 ≤ options.maxConcurrency := by
  unfold make at h
  split_ifs at h with none
  split at h
  · cases h
  · rw [← Except.ok.inj h]
    exact ⟨rfl, rfl, Nat.one_le_iff_ne_zero.2 none⟩

/-- Every schedule of a valid batch keeps to the number of items that may be under way, comes to its
end after at most two steps an item, gets stuck nowhere before, and has a ledger that accounts for
the batch and says of every item that was answered what it was answered.  What a service makes of
the batch is one of these schedules, whatever the service answers and however long it takes. -/
theorem schedule_accounts {items : List BatchItem} {options : BatchOptions} {b : Batch}
    (h : make items options = .ok b) :
    (∀ steps r, (Run.start b).follow? steps = some r →
      r.active.length ≤ options.maxConcurrency ∧
      steps.length ≤ 2 * items.length ∧
      (r.isOver = true ↔ ∀ s, r.step? s = none) ∧
      (r.isOver = true → (r.ledger b.id).Accounts items options.failureStrategy ∧
        ∀ number answer, .complete number answer ∈ steps → ∃ i, items[number]? = some i ∧
          r.outcomes[number]? = some (.of i (.ofResult answer)))) ∧
    ∀ service, (b.run service).Accounts items options.failureStrategy ∧
      ∃ steps r, (Run.start b).follow? steps = some r ∧ r.isOver = true ∧
        b.run service = r.ledger b.id := by
  obtain ⟨rfl, rfl, room⟩ := make_eq_ok h
  have underway : ∀ {steps r}, (Run.start b).follow? steps = some r → Run.Underway b r :=
    fun run => (Run.start_underway b).follow run
  refine ⟨fun steps r run => ⟨(underway run).room, Run.length_le_of_follow? run, ?_, ?_⟩,
    fun service => ?_⟩
  · exact Run.isOver_iff_stuck (by rw [(underway run).options]; exact room)
  · intro finished
    exact ⟨(underway run).accounts finished, fun number answer answered =>
      (underway run).outcome_of_complete finished run answered⟩
  · obtain ⟨⟨steps, run⟩, finished⟩ := Timeline.complete_follows service room
    exact ⟨(underway run).accounts finished, steps, _, run, finished, rfl⟩

/-- Three items, of which the second one fails while the first one is under way. -/
def letters : List BatchItem :=
  [⟨"a", .summarize, .null, none⟩, ⟨"b", .validate, .null, none⟩, ⟨"c", .enhance, .null, none⟩]

def twoAtATime : BatchOptions := ⟨2, .abort, none⟩

def secondFails : List Run.Step :=
  [.takeUp, .takeUp, .complete 1 (.error default), .takeUp, .complete 0 (.ok default)]

/-- The run that ends with these steps. -/
def afterSecondFails : Run where
  options := twoAtATime
  next := 3
  waiting := []
  active := []
  done := [(1, .of ⟨"b", .validate, .null, none⟩ (.failed default)),
    (2, .of ⟨"c", .enhance, .null, none⟩ .cancelled),
    (0, .of ⟨"a", .summarize, .null, none⟩ (.answered default))]
  stopped := true

theorem schedule_accounts_secondFails :
    ∃ b, make letters twoAtATime = .ok b ∧
      (Run.start b).follow? secondFails = some afterSecondFails ∧
      (afterSecondFails.ledger b.id).Accounts letters .abort ∧
      afterSecondFails.outcomes.map (·.status) = [.success, .failed, .cancelled] := by
  let b : Batch := ⟨contentId "batch" (Bytes.ofString (fingerprint letters)), letters, twoAtATime⟩
  have made : make letters twoAtATime = .ok b := rfl
  have run : (Run.start b).follow? secondFails = some afterSecondFails := rfl
  obtain ⟨-, -, -, accounts⟩ := (schedule_accounts made).1 secondFails afterSecondFails run
  refine ⟨b, made, run, (accounts rfl).1, ?_⟩
  simp [Run.outcomes, afterSecondFails, List.mergeSort, ItemOutcome.of, ItemOutcome.status,
    Ending.status]

end Batch

end ApiCanon
