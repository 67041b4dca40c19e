import ApiCanon.Proofs.Batch.Schedules

/-!
# Calls to the service

The items that a schedule calls the service for (`Run.calls`).  They are the first ones, one behind
the other: where the calls stop is where the batch is cut, and what is cancelled is behind the cut
(`Run.Cut`, kept by every move).  No call comes after a failure that stops the batch, and every
item that the service is called for is answered before the run is over, once only.
-/

namespace ApiCanon

namespace Ending

lemma isFailure_iff (e : Ending) : e.isFailure = true ↔ e.status = .failed := by
  cases e <;> simp [isFailure, status]

lemma status_ofResult_ne_cancelled (answer : Except ServiceError ServiceResponse) :
    (ofResult answer).status ≠ .cancelled := by
  cases answer <;> simp [ofResult, status]

lemma status_eq_cancelled_iff {e : Ending} : e.status = .cancelled ↔ e = .cancelled := by
  cases e <;> simp [status]

lemma ofResult_injective : Function.Injective ofResult := by
  rintro (e | r) (e' | r') h <;> cases h <;> rfl

end Ending

namespace Run

/-! ## Calls to the service -/

/-- The item that a step calls the service for: one that is taken up, unless the run has been
stopped. -/
def called (r : Run) : Step → List Nat
  | .takeUp => if r.stopped then [] else [r.next]
  | .complete _ _ => []

/-- The items that a schedule calls the service for, in the order of the calls. -/
def calls (r : Run) : List Step → List Nat
  | [] => []
  | s :: rest =>
    match r.step? s with
    | none => []
    | some next => r.called s ++ next.calls rest

variable {b : Batch} {r r' : Run} {s : Step} {k : Nat}

lemma called_of_going (h : r.stopped = false) : r.called .takeUp = [r.next] := by
  simp [called, h]

lemma called_of_stopped (h : r.stopped = true) (s : Step) : r.called s = [] := by
  cases s with
  | takeUp => exact if_pos h
  | complete number answer => rfl

lemma calls_cons (m : Moves r s r') (rest : List Step) :
    r.calls (s :: rest) = r.called s ++ r'.calls rest := by
  rw [calls, step?_eq_some_iff.2 m]

lemma follow?_append (r : Run) (before after : List Step) :
    r.follow? (before ++ after) = (r.follow? before).bind (·.follow? after) := by
  induction before generalizing r with
  | nil => rfl
  | cons s rest ih =>
    rw [List.cons_append, follow?_cons, follow?_cons, Option.bind_assoc]
    exact congrArg _ (funext ih)

lemma calls_append {before : List Step} (run : r.follow? before = some r') (after : List Step) :
    r.calls (before ++ after) = r.calls before ++ r'.calls after := by
  induction before generalizing r with
  | nil =>
    obtain rfl := Option.some.inj run
    rfl
  | cons s rest ih =>
    obtain ⟨next, step, run⟩ := Option.bind_eq_some_iff.1 run
    have moves := step?_eq_some_iff.1 step
    rw [List.cons_append, calls_cons moves, calls_cons moves, ih run, List.append_assoc]

lemma Moves.stopped (m : Moves r s r') (h : r.stopped = true) : r'.stopped = true := by
  cases m with
  | launch waiting room going => exact h
  | dismiss waiting room stopped => exact h
  | finish answer active => exact Bool.or_eq_true_iff.2 (.inl h)

/-- A run that has been stopped calls the service no more. -/
lemma calls_of_stopped (h : r.stopped = true) (steps : List Step) : r.calls steps = [] := by
  induction steps generalizing r with
  | nil => rfl
  | cons s rest ih =>
    cases step : r.step? s with
    | none => rw [calls, step]
    | some next =>
      have moves := step?_eq_some_iff.1 step
      rw [calls_cons moves, ih (moves.stopped h), called_of_stopped h]
      rfl

/-- No call comes after a failure. -/
lemma Underway.calls_of_failure (h : Underway b r) (abort : b.options.failureStrategy = .abort)
    {before after : List Step} {number : Nat} {error : ServiceError}
    (run : r.follow? (before ++ .complete number (.error error) :: after) = some r') :
    r.calls (before ++ .complete number (.error error) :: after) = r.calls before := by
  rw [follow?_append] at run
  obtain ⟨mid, first, run⟩ := Option.bind_eq_some_iff.1 run
  obtain ⟨next, step, -⟩ := Option.bind_eq_some_iff.1 run
  have moves := step?_eq_some_iff.1 step
  have stopped : next.stopped = true := by
    have options := (h.follow first).options
    cases moves with
    | finish answer active => simp [Run.finish, options, abort, Ending.ofResult, Ending.isFailure]
  rw [calls_append first, calls_cons moves, calls_of_stopped stopped]
  exact List.append_nil _

/-! ## Items under way -/

/-- An item under way is answered before the run comes to its end. -/
lemma exists_complete_of_active {steps : List Step} (run : r.follow? steps = some r')
    (finished : r'.isOver = true) {number : Nat} {i : BatchItem} (active : (number, i) ∈ r.active) :
    ∃ answer, .complete number answer ∈ steps := by
  induction steps generalizing r with
  | nil =>
    rw [Option.some.inj run, (isOver_iff.1 finished).2] at active
    cases active
  | cons s rest ih =>
    obtain ⟨next, step, run⟩ := Option.bind_eq_some_iff.1 run
    have kept : (number, i) ∈ next.active ∨ ∃ answer, s = .complete number answer := by
      cases step?_eq_some_iff.1 step with
      | launch => exact Or.inl (List.mem_append_left _ active)
      | dismiss => exact Or.inl active
      | @finish ended _ answer =>
        by_cases same : number = ended
        · exact Or.inr ⟨answer, by rw [same]⟩
        · exact Or.inl (List.mem_filter.2 ⟨active, bne_iff_ne.2 same⟩)
    rcases kept with still | ⟨answer, rfl⟩
    · exact (ih run still).imp fun _ => List.mem_cons_of_mem _
    · exact ⟨answer, List.mem_cons_self⟩

/-- So is an item that the service is called for. -/
lemma exists_complete_of_called {steps : List Step} (run : r.follow? steps = some r')
    (finished : r'.isOver = true) {number : Nat} (h : number ∈ r.calls steps) :
    ∃ answer, .complete number answer ∈ steps := by
  induction steps generalizing r with
  | nil => cases h
  | cons s rest ih =>
    obtain ⟨next, step, run⟩ := Option.bind_eq_some_iff.1 run
    have moves := step?_eq_some_iff.1 step
    rw [calls_cons moves] at h
    have answered : ∃ answer, .complete number answer ∈ rest := by
      rcases List.mem_append.1 h with now | later
      · cases moves with
        | @launch i _ _ _ going =>
          rw [called_of_going going] at now
          obtain rfl := List.mem_singleton.1 now
          exact exists_complete_of_active run finished
            (List.mem_append_right _ (List.mem_singleton.2 rfl))
        | dismiss waiting room stopped =>
          rw [called_of_stopped stopped] at now
          cases now
        | finish => cases now
      · exact ih run later
    exact answered.imp fun _ => List.mem_cons_of_mem _

/-- No item is answered twice. -/
lemma Underway.answer_unique (h : Underway b r') {steps : List Step}
    (run : r.follow? steps = some r') {number : Nat}
    {answer other : Except ServiceError ServiceResponse} (first : .complete number answer ∈ steps)
    (second : .complete number other ∈ steps) : answer = other := by
  obtain ⟨i, ended⟩ := mem_done_of_complete run first
  obtain ⟨j, ended'⟩ := mem_done_of_complete run second
  have distinct : (r'.done.map (·.1)).Nodup := (List.nodup_append.1 h.distinct).1
  have same := List.inj_on_of_nodup_map distinct ended ended' rfl
  exact Ending.ofResult_injective (congrArg (·.2.ending) same)

/-! ## The cut -/

/-- How a run stands after the service has been called for the first `k` items. -/
structure Cut (k : Nat) (r : Run) : Prop where
  inside : k ≤ r.next
  active : ∀ p ∈ r.active, p.1 < k
  cancelled : ∀ p ∈ r.done, p.2.status = .cancelled ↔ k ≤ p.1
  going : r.stopped = false → r.next = k
  stopped : r.stopped = true → ∃ p ∈ r.done, p.2.status = .failed

lemma start_cut (b : Batch) : Cut 0 (start b) where
  inside := Nat.le_refl 0
  active := nofun
  cancelled := nofun
  going := fun _ => rfl
  stopped := nofun

lemma Underway.lt_next (h : Underway b r) {p : Nat × ItemOutcome} (hp : p ∈ r.done) :
    p.1 < r.next :=
  List.mem_range.1 (h.once.mem_iff.1 (List.mem_append_left _ (List.mem_map.2 ⟨p, hp, rfl⟩)))

lemma Cut.launch (cut : Cut k r) (h : Underway b r) (i : BatchItem) (rest : List BatchItem)
    (going : r.stopped = false) : Cut (k + 1) (r.launch i rest) := by
  have here := cut.going going
  refine ⟨Nat.succ_le_succ cut.inside, fun p hp => ?_, fun p hp => ?_,
    fun _ => congrArg (· + 1) here, fun stopped => ?_⟩
  · rcases List.mem_append.1 hp with hp | hp
    · exact Nat.lt_succ_of_lt (cut.active p hp)
    · rw [List.mem_singleton.1 hp, here]
      exact Nat.lt_succ_self k
  · -- as no item has been cancelled so far, the cut may move
    have before : p.1 < k := here ▸ h.lt_next hp
    rw [cut.cancelled p hp]
    omega
  · exact absurd (going.symm.trans stopped) Bool.false_ne_true

lemma Cut.dismiss (cut : Cut k r) (i : BatchItem) (rest : List BatchItem)
    (stopped : r.stopped = true) : Cut k (r.dismiss i rest) := by
  refine ⟨Nat.le_succ_of_le cut.inside, cut.active, fun p hp => ?_, fun going => ?_, fun _ => ?_⟩
  · rcases List.mem_append.1 hp with hp | hp
    · exact cut.cancelled p hp
    · rw [List.mem_singleton.1 hp]
      exact iff_of_true rfl cut.inside
  · exact absurd (going.symm.trans stopped) Bool.false_ne_true
  · obtain ⟨p, hp, failed⟩ := cut.stopped stopped
    exact ⟨p, List.mem_append_left _ hp, failed⟩

lemma Cut.finish (cut : Cut k r) {number : Nat} {i : BatchItem} (active : (number, i) ∈ r.active)
    (answer : Except ServiceError ServiceResponse) : Cut k (r.finish number i answer) := by
  refine ⟨cut.inside, fun p hp => cut.active p (List.mem_filter.1 hp).1, fun p hp => ?_,
    fun going => cut.going (Bool.or_eq_false_iff.1 going).1, fun stopped => ?_⟩
  · rcases List.mem_append.1 hp with hp | hp
    · exact cut.cancelled p hp
    · rw [List.mem_singleton.1 hp]
      exact iff_of_false (Ending.status_ofResult_ne_cancelled answer)
        (Nat.not_le.2 (cut.active _ active))
  · rcases Bool.or_eq_true_iff.1 stopped with stopped | failed
    · obtain ⟨p, hp, failed⟩ := cut.stopped stopped
      exact ⟨p, List.mem_append_left _ hp, failed⟩
    · exact ⟨_, List.mem_append_right _ List.mem_cons_self,
        (Ending.isFailure_iff _).1 (Bool.and_eq_true_iff.1 failed).2⟩

/-- A move calls the service for the item behind the cut, which it moves on, or not at all. -/
theorem Cut.moves (cut : Cut k r) (h : Underway b r) (m : Moves r s r') :
    r.called s = List.range' k (r.called s).length ∧ Cut (k + (r.called s).length) r' := by
  cases m with
  | launch waiting room going =>
    rw [called_of_going going, cut.going going]
    exact ⟨rfl, cut.launch h _ _ going⟩
  | dismiss waiting room stopped =>
    rw [called_of_stopped stopped]
    exact ⟨rfl, cut.dismiss _ _ stopped⟩
  | finish answer active => exact ⟨rfl, cut.finish (mem_of_lookup active) answer⟩

/-- A schedule calls the service for items one behind the other. -/
theorem Cut.follow (cut : Cut k r) (h : Underway b r) {steps : List Step}
    (run : r.follow? steps = some r') :
    r.calls steps = List.range' k (r.calls steps).length ∧ Cut (k + (r.calls steps).length) r' := by
  induction steps generalizing r k with
  | nil => exact ⟨rfl, Option.some.inj run ▸ cut⟩
  | cons s rest ih =>
    obtain ⟨next, step, run⟩ := Option.bind_eq_some_iff.1 run
    have moves := step?_eq_some_iff.1 step
    obtain ⟨first, cut⟩ := cut.moves h moves
    obtain ⟨others, cut⟩ := ih cut (h.moves moves) run
    rw [calls_cons moves, List.length_append, ← Nat.add_assoc]
    refine ⟨?_, cut⟩
    rw [← List.range'_append_1, ← first, ← others]

end Run

end ApiCanon
