import ApiCanon.Batch.Timeline
import Mathlib.Data.List.Forall2
import Mathlib.Data.List.Nodup
import Mathlib.Data.List.Perm.Basic
import Mathlib.Tactic.Lemma
import Mathlib.Tactic.SplitIfs

/-!
# Schedules of a batch

What every schedule of a batch keeps, whatever the items are answered and in whatever order they
end.  A run moves in three ways (`Moves`): an item is launched, or dismissed because the run has
been stopped, or it ends.  At any time every item taken up so far is under way or done, once and
under its own number, and no more items are under way than the options allow (`Underway`, kept by
every move).

No schedule goes on for ever: two moves an item are all there are (`length_le_of_follow?`).  And
none gets stuck: as long as a run is not over it can go on (`isOver_iff_stuck`), and every item
under way can end with any answer (`exists_complete`).

The schedule that a service makes is one of these and brings the run to its end
(`Timeline.complete_follows`).
-/

namespace ApiCanon

namespace Run

/-! ## Moves -/

/-- The run after the next item has been taken up. -/
def launch (r : Run) (i : BatchItem) (rest : List BatchItem) : Run :=
  { r with next := r.next + 1, waiting := rest, active := r.active ++ [(r.next, i)] }

/-- The run after the next item has been cancelled. -/
def dismiss (r : Run) (i : BatchItem) (rest : List BatchItem) : Run :=
  { r with
    next := r.next + 1, waiting := rest,
    done := r.done ++ [(r.next, .of i .cancelled)] }

/-- The run after an item has ended with an answer. -/
def finish (r : Run) (number : Nat) (i : BatchItem)
    (answer : Except ServiceError ServiceResponse) : Run :=
  { r with
    active := r.active.filter fun p => p.1 != number
    done := r.done ++ [(number, .of i (.ofResult answer))]
    stopped := r.stopped ||
      (r.options.failureStrategy == .abort && (Ending.ofResult answer).isFailure) }

/-- What a step can do. -/
inductive Moves (r : Run) : Step → Run → Prop
  | launch {i : BatchItem} {rest : List BatchItem} (waiting : r.waiting = i :: rest)
      (room : r.active.length < r.options.maxConcurrency) (going : r.stopped = false) :
      Moves r .takeUp (r.launch i rest)
  | dismiss {i : BatchItem} {rest : List BatchItem} (waiting : r.waiting = i :: rest)
      (room : r.active.length < r.options.maxConcurrency) (stopped : r.stopped = true) :
      Moves r .takeUp (r.dismiss i rest)
  | finish {number : Nat} {i : BatchItem} (answer : Except ServiceError ServiceResponse)
      (active : r.active.lookup number = some i) :
      Moves r (.complete number answer) (r.finish number i answer)

lemma Moves.options {r r' : Run} {s : Step} (m : Moves r s r') : r'.options = r.options := by
  cases m <;> rfl

theorem takeUp?_eq_some_iff {r r' : Run} : r.takeUp? = some r' ↔ Moves r .takeUp r' := by
  constructor
  · intro h
    unfold takeUp? at h
    split at h
    · cases h
    · next i rest waiting =>
      split_ifs at h with room stopped
      · cases h
        exact .dismiss waiting (by simpa [hasRoom] using room) stopped
      · cases h
        exact .launch waiting (by simpa [hasRoom] using room) (by simpa using stopped)
  · rintro (⟨waiting, room, going⟩ | ⟨waiting, room, stopped⟩ | _)
    · simp [takeUp?, waiting, hasRoom, room, going, Run.launch]
    · simp [takeUp?, waiting, hasRoom, room, stopped, Run.dismiss]

theorem complete?_eq_some_iff {r r' : Run} {number : Nat}
    {answer : Except ServiceError ServiceResponse} :
    r.complete? number answer = some r' ↔ Moves r (.complete number answer) r' := by
  constructor
  · intro h
    unfold complete? at h
    split at h
    · cases h
    · next i active =>
      cases h
      exact .finish answer active
  · rintro ⟨⟩
    next i active => simp [complete?, active, Run.finish]

/-- The steps are the moves. -/
theorem step?_eq_some_iff {r r' : Run} {s : Step} : r.step? s = some r' ↔ Moves r s r' := by
  cases s with
  | takeUp => exact takeUp?_eq_some_iff
  | complete number answer => exact complete?_eq_some_iff

/-! ## What a run keeps -/

/-- The numbers of the items taken up, those that have ended first. -/
def numbers (r : Run) : List Nat := r.done.map (·.1) ++ r.active.map (·.1)

/-- How a run of a batch stands at any time: every item taken up is under way or done, once and
under its own number. -/
structure Underway (b : Batch) (r : Run) : Prop where
  options : r.options = b.options
  waiting : r.waiting = b.items.drop r.next
  next : r.next ≤ b.items.length
  active : ∀ p ∈ r.active, b.items[p.1]? = some p.2
  done : ∀ p ∈ r.done, ∃ i, b.items[p.1]? = some i ∧ ∃ e, p.2 = .of i e
  once : r.numbers.Perm (List.range r.next)
  room : r.active.length ≤ b.options.maxConcurrency
  stopped : r.stopped = true → b.options.failureStrategy = .abort
  /-- Only a run that has been stopped cancels items. -/
  cancelled : ∀ p ∈ r.done, p.2.ending = .cancelled → r.stopped = true

variable {b : Batch} {r r' : Run}

lemma start_underway (b : Batch) : Underway b (start b) where
  options := rfl
  waiting := rfl
  next := Nat.zero_le _
  active := nofun
  done := nofun
  once := List.Perm.refl []
  room := Nat.zero_le _
  stopped := nofun
  cancelled := nofun

/-- The next item is the first one that waits. -/
lemma Underway.getElem?_next (h : Underway b r) {i : BatchItem} {rest : List BatchItem}
    (waiting : r.waiting = i :: rest) :
    b.items[r.next]? = some i ∧ rest = b.items.drop (r.next + 1) ∧ r.next + 1 ≤ b.items.length := by
  have drop := waiting.symm.trans h.waiting
  have inside : r.next < b.items.length := by
    by_contra outside
    rw [List.drop_eq_nil_of_le (Nat.not_lt.1 outside)] at drop
    cases drop
  rw [List.drop_eq_getElem_cons inside] at drop
  obtain ⟨first, others⟩ := List.cons.inj drop
  exact ⟨by rw [List.getElem?_eq_getElem inside, first], others, inside⟩

lemma numbers_launch (r : Run) (i : BatchItem) (rest : List BatchItem) :
    (r.launch i rest).numbers = r.numbers ++ [r.next] := by
  simp [numbers, Run.launch]

lemma numbers_dismiss (r : Run) (i : BatchItem) (rest : List BatchItem) :
    (r.dismiss i rest).numbers.Perm (r.numbers ++ [r.next]) := by
  simp only [numbers, Run.dismiss, List.map_append, List.append_assoc]
  exact List.perm_append_comm.append_left _

/-- An item that ends is no longer under way and is done. -/
lemma numbers_finish {r : Run} (distinct : r.numbers.Nodup) {number : Nat} {i : BatchItem}
    (active : (number, i) ∈ r.active) (answer : Except ServiceError ServiceResponse) :
    (r.finish number i answer).numbers.Perm r.numbers := by
  have member : number ∈ r.active.map (·.1) := List.mem_map.2 ⟨_, active, rfl⟩
  have others : (r.active.filter fun p => p.1 != number).map (·.1) =
      (r.active.map (·.1)).erase number := by
    rw [(List.nodup_append.1 distinct).2.1.erase_eq_filter, List.filter_map]
    rfl
  simp only [numbers, Run.finish, List.map_append, List.append_assoc, others]
  exact (List.perm_cons_erase member).symm.append_left _

lemma mem_of_lookup {l : List (Nat × BatchItem)} {number : Nat} {i : BatchItem}
    (h : l.lookup number = some i) : (number, i) ∈ l := by
  obtain ⟨before, after, rfl, -⟩ := List.lookup_eq_some_iff.1 h
  simp

lemma Underway.distinct (h : Underway b r) : r.numbers.Nodup :=
  h.once.nodup_iff.2 List.nodup_range

lemma Underway.launch (h : Underway b r) {i : BatchItem} {rest : List BatchItem}
    (waiting : r.waiting = i :: rest) (room : r.active.length < r.options.maxConcurrency) :
    Underway b (r.launch i rest) := by
  obtain ⟨item, others, inside⟩ := h.getElem?_next waiting
  refine ⟨h.options, others, inside, fun p hp => ?_, h.done, ?_, ?_, h.stopped, h.cancelled⟩
  · rcases List.mem_append.1 hp with hp | hp
    · exact h.active p hp
    · rw [List.mem_singleton.1 hp]
      exact item
  · rw [numbers_launch, Run.launch, List.range_succ]
    exact h.once.append_right [r.next]
  · rw [← h.options, Run.launch, List.length_append]
    exact room

lemma Underway.dismiss (h : Underway b r) {i : BatchItem} {rest : List BatchItem}
    (waiting : r.waiting = i :: rest) (stopped : r.stopped = true) :
    Underway b (r.dismiss i rest) := by
  obtain ⟨item, others, inside⟩ := h.getElem?_next waiting
  refine ⟨h.options, others, inside, h.active, fun p hp => ?_, ?_, h.room, h.stopped,
    fun _ _ _ => stopped⟩
  · rcases List.mem_append.1 hp with hp | hp
    · exact h.done p hp
    · rw [List.mem_singleton.1 hp]
      exact ⟨i, item, _, rfl⟩
  · refine (numbers_dismiss r i rest).trans ?_
    rw [Run.dismiss, List.range_succ]
    exact h.once.append_right [r.next]

lemma Underway.finish (h : Underway b r) {number : Nat} {i : BatchItem}
    (active : (number, i) ∈ r.active) (answer : Except ServiceError ServiceResponse) :
    Underway b (r.finish number i answer) := by
  refine ⟨h.options, h.waiting, h.next, fun p hp => h.active p (List.mem_filter.1 hp).1,
    fun p hp => ?_, (numbers_finish h.distinct active answer).trans h.once,
    Nat.le_trans (List.length_filter_le _ _) h.room, fun stopped => ?_, fun p hp cancelled => ?_⟩
  · rcases List.mem_append.1 hp with hp | hp
    · exact h.done p hp
    · rw [List.mem_singleton.1 hp]
      exact ⟨i, h.active _ active, _, rfl⟩
  · rcases Bool.or_eq_true_iff.1 stopped with stopped | failed
    · exact h.stopped stopped
    · rw [← h.options]
      exact beq_iff_eq.1 (Bool.and_eq_true_iff.1 failed).1
  · rcases List.mem_append.1 hp with hp | hp
    · exact Bool.or_eq_true_iff.2 (.inl (h.cancelled p hp cancelled))
    · -- an item that was answered has not been cancelled
      rw [List.mem_singleton.1 hp] at cancelled
      cases answer <;> cases cancelled

/-- Every move keeps how a run stands. -/
theorem Underway.moves (h : Underway b r) {s : Step} (m : Moves r s r') : Underway b r' := by
  cases m with
  | launch waiting room going => exact h.launch waiting room
  | dismiss waiting room stopped => exact h.dismiss waiting stopped
  | finish answer active => exact h.finish (mem_of_lookup active) answer

/-- So does every schedule. -/
theorem Underway.follow (h : Underway b r) {steps : List Step}
    (run : r.follow? steps = some r') : Underway b r' := by
  induction steps generalizing r with
  | nil => exact Option.some.inj run ▸ h
  | cons s rest ih =>
    obtain ⟨next, step, run⟩ := Option.bind_eq_some_iff.1 run
    exact ih (h.moves (step?_eq_some_iff.1 step)) run

/-! ## The end of a run -/

/-- How many steps are left: two for an item that waits, one for an item under way. -/
def remaining (r : Run) : Nat := 2 * r.waiting.length + r.active.length

lemma isOver_iff : r.isOver = true ↔ r.waiting = [] ∧ r.active = [] := by
  simp [isOver]

lemma isOver_iff_remaining : r.isOver = true ↔ r.remaining = 0 := by
  rw [isOver_iff, remaining, ← List.length_eq_zero_iff, ← List.length_eq_zero_iff]
  omega

lemma remaining_lt {s : Step} (m : Moves r s r') : r'.remaining < r.remaining := by
  cases m with
  | launch waiting room going => simp [remaining, Run.launch, waiting]; omega
  | dismiss waiting room stopped => simp [remaining, Run.dismiss, waiting]
  | finish answer active =>
    refine Nat.add_lt_add_left (List.length_filter_lt_length_iff_exists.2 ?_) _
    exact ⟨_, mem_of_lookup active, by simp⟩

lemma length_add_remaining_le {steps : List Step} (run : r.follow? steps = some r') :
    steps.length + r'.remaining ≤ r.remaining := by
  induction steps generalizing r with
  | nil =>
    rw [Option.some.inj run]
    simp
  | cons s rest ih =>
    obtain ⟨next, step, run⟩ := Option.bind_eq_some_iff.1 run
    have fewer := remaining_lt (step?_eq_some_iff.1 step)
    have rest := ih run
    rw [List.length_cons]
    omega

/-- A schedule has at most two steps for each item. -/
theorem length_le_of_follow? {steps : List Step} (run : (start b).follow? steps = some r) :
    steps.length ≤ 2 * b.items.length :=
  Nat.le_trans (Nat.le_add_right _ _) (length_add_remaining_le run)

/-- Every item under way can end, with any answer. -/
lemma exists_complete {number : Nat} {i : BatchItem} (active : (number, i) ∈ r.active)
    (answer : Except ServiceError ServiceResponse) :
    ∃ r', r.step? (.complete number answer) = some r' := by
  have found : r.active.lookup number ≠ none := fun none =>
    bne_iff_ne.1 (List.lookup_eq_none_iff.1 none _ active) rfl
  obtain ⟨j, found⟩ := Option.ne_none_iff_exists'.1 found
  exact ⟨_, step?_eq_some_iff.2 (.finish answer found)⟩

/-- The next item can be taken up whenever there is room. -/
lemma exists_takeUp {i : BatchItem} {rest : List BatchItem} (waiting : r.waiting = i :: rest)
    (room : r.active.length < r.options.maxConcurrency) : ∃ r', r.step? .takeUp = some r' := by
  cases stopped : r.stopped with
  | true => exact ⟨_, step?_eq_some_iff.2 (.dismiss waiting room stopped)⟩
  | false => exact ⟨_, step?_eq_some_iff.2 (.launch waiting room stopped)⟩

/-- A run is over when, and only when, there is no step that it could take. -/
theorem isOver_iff_stuck (room : 1 ≤ r.options.maxConcurrency) :
    r.isOver = true ↔ ∀ s, r.step? s = none := by
  constructor
  · intro finished s
    refine Option.eq_none_iff_forall_ne_some.2 fun r' step => ?_
    have fewer := remaining_lt (step?_eq_some_iff.1 step)
    rw [isOver_iff_remaining.1 finished] at fewer
    exact Nat.not_lt_zero _ fewer
  · intro stuck
    have active : r.active = [] := by
      refine List.eq_nil_iff_forall_not_mem.2 fun p hp => ?_
      obtain ⟨r', step⟩ := exists_complete hp (.error default)
      rw [stuck] at step
      cases step
    have waiting : r.waiting = [] := by
      cases hw : r.waiting with
      | nil => rfl
      | cons i rest =>
        obtain ⟨r', step⟩ := exists_takeUp hw (by rw [active]; exact room)
        rw [stuck] at step
        cases step
    exact isOver_iff.2 ⟨waiting, active⟩

/-- In a run that is over, every item is done, once. -/
lemma Underway.done_perm (h : Underway b r) (finished : r.isOver = true) :
    (r.done.map (·.1)).Perm (List.range b.items.length) := by
  obtain ⟨waiting, active⟩ := isOver_iff.1 finished
  have all : r.next = b.items.length := by
    have drop := h.waiting
    rw [waiting] at drop
    exact Nat.le_antisymm h.next (List.drop_eq_nil_iff.1 drop.symm)
  have once := h.once
  rw [numbers, active, List.map_nil, List.append_nil, all] at once
  exact once

/-- What is done, in the order of the items' numbers. -/
def sorted (r : Run) : List (Nat × ItemOutcome) := r.done.mergeSort fun a b => a.1 ≤ b.1

lemma sorted_perm (r : Run) : r.sorted.Perm r.done := List.mergeSort_perm _ _

lemma pairwise_sorted (r : Run) : r.sorted.Pairwise fun a b => a.1 ≤ b.1 := by
  refine (List.pairwise_mergeSort (fun a b c hab hbc => ?_) (fun a b => ?_) r.done).imp
    of_decide_eq_true
  · exact decide_eq_true (Nat.le_trans (of_decide_eq_true hab) (of_decide_eq_true hbc))
  · rw [Bool.or_eq_true_iff, decide_eq_true_iff, decide_eq_true_iff]
    exact Nat.le_total _ _

lemma Underway.numbers_sorted (h : Underway b r) (finished : r.isOver = true) :
    r.sorted.map (·.1) = List.range b.items.length :=
  ((r.sorted_perm.map (·.1)).trans (h.done_perm finished)).eq_of_pairwise
    (fun _ _ _ _ => Nat.le_antisymm) (List.pairwise_map.2 r.pairwise_sorted)
    (List.pairwise_lt_range.imp Nat.le_of_lt)

/-- In a run that is over, the outcome of an item stands in its place, in whatever order the items
have ended. -/
lemma Underway.getElem?_outcomes (h : Underway b r) (finished : r.isOver = true) {number : Nat}
    {o : ItemOutcome} (ended : (number, o) ∈ r.done) : r.outcomes[number]? = some o := by
  obtain ⟨k, hk, entry⟩ := List.mem_iff_getElem.1 (r.sorted_perm.mem_iff.2 ended)
  have place : number = k := by
    have numbers := congrArg (·[k]?) (h.numbers_sorted finished)
    have inside : k < b.items.length := by
      have length := congrArg List.length (h.numbers_sorted finished)
      rw [List.length_map, List.length_range] at length
      exact length ▸ hk
    simpa [hk, inside, entry] using numbers
  change (r.sorted.map (·.2))[number]? = some o
  rw [place, List.getElem?_map, List.getElem?_eq_getElem hk, entry]
  rfl

/-- The outcomes of a run that is over are those of the items in the order of submission. -/
theorem Underway.outcomes_eq (h : Underway b r) (finished : r.isOver = true) :
    List.Forall₂ (fun i o => ∃ e, o = ItemOutcome.of i e) b.items r.outcomes := by
  have length : b.items.length = r.outcomes.length := by
    have numbers := congrArg List.length (h.numbers_sorted finished)
    rw [List.length_map, List.length_range] at numbers
    rw [← numbers]
    exact (List.length_map _).symm
  refine List.forall₂_iff_get.2 ⟨length, fun k hk hk' => ?_⟩
  have taken : k ∈ r.done.map (·.1) :=
    (h.done_perm finished).mem_iff.2 (List.mem_range.2 hk)
  obtain ⟨⟨_, o⟩, ended, rfl⟩ := List.mem_map.1 taken
  obtain ⟨i, item, e, rfl⟩ := h.done _ ended
  have outcome := h.getElem?_outcomes finished ended
  rw [List.getElem?_eq_getElem hk] at item
  rw [List.getElem?_eq_getElem hk'] at outcome
  exact ⟨e, by rw [List.get_eq_getElem, List.get_eq_getElem, Option.some.inj item,
    Option.some.inj outcome]⟩

/-! ## Answers -/

lemma Moves.done_subset {s : Step} (m : Moves r s r') : r.done ⊆ r'.done := by
  cases m with
  | launch => exact List.Subset.refl _
  | dismiss => exact List.subset_append_left _ _
  | finish => exact List.subset_append_left _ _

lemma done_subset_of_follow? {steps : List Step} (run : r.follow? steps = some r') :
    r.done ⊆ r'.done := by
  induction steps generalizing r with
  | nil => exact Option.some.inj run ▸ List.Subset.refl _
  | cons s rest ih =>
    obtain ⟨next, step, run⟩ := Option.bind_eq_some_iff.1 run
    exact List.Subset.trans (step?_eq_some_iff.1 step).done_subset (ih run)

/-- What an item was answered is what has become of it. -/
lemma mem_done_of_complete {steps : List Step} (run : r.follow? steps = some r') {number : Nat}
    {answer : Except ServiceError ServiceResponse} (answered : .complete number answer ∈ steps) :
    ∃ i, (number, .of i (.ofResult answer)) ∈ r'.done := by
  induction steps generalizing r with
  | nil => cases answered
  | cons s rest ih =>
    obtain ⟨next, step, run⟩ := Option.bind_eq_some_iff.1 run
    rcases List.mem_cons.1 answered with rfl | later
    · cases step?_eq_some_iff.1 step with
      | @finish _ i _ active =>
        have ended : (number, .of i (.ofResult answer)) ∈ (r.finish number i answer).done :=
          List.mem_append_right _ List.mem_cons_self
        exact ⟨i, done_subset_of_follow? run ended⟩
    · exact ih run later

/-- The outcome of an item that was answered tells the answer. -/
theorem Underway.outcome_of_complete (h : Underway b r') (finished : r'.isOver = true)
    {steps : List Step} (run : r.follow? steps = some r') {number : Nat}
    {answer : Except ServiceError ServiceResponse} (answered : .complete number answer ∈ steps) :
    ∃ i, b.items[number]? = some i ∧ r'.outcomes[number]? = some (.of i (.ofResult answer)) := by
  obtain ⟨i, ended⟩ := mem_done_of_complete run answered
  obtain ⟨j, item, e, same⟩ := h.done _ ended
  obtain rfl : Ending.ofResult answer = e := congrArg ItemOutcome.ending same
  exact ⟨j, item, (h.getElem?_outcomes finished ended).trans (congrArg some same)⟩

end Run

/-! ## The schedule of a service -/

namespace Timeline

open Run (Moves)

/-- The ends that are awaited are those of the items under way. -/
def Booked (t : Timeline) : Prop := t.appointments.map (·.number) = t.run.active.map (·.1)

variable {service : Service} {t u : Timeline}

lemma mem_of_earliest? {l : List Appointment} {a : Appointment} (h : earliest? l = some a) :
    a ∈ l := by
  induction l generalizing a with
  | nil => cases h
  | cons c rest ih =>
    unfold earliest? at h
    split at h
    · rw [Option.some.inj h]
      exact List.mem_cons_self
    · next d found =>
      split_ifs at h
      · rw [Option.some.inj h]
        exact List.mem_cons_self
      · rw [← Option.some.inj h]
        exact List.mem_cons_of_mem _ (ih found)

lemma eq_nil_of_earliest? {l : List Appointment} (h : earliest? l = none) : l = [] := by
  cases l with
  | nil => rfl
  | cons c rest =>
    unfold earliest? at h
    split at h
    · cases h
    · split_ifs at h

lemma takeUp?_moves (h : t.takeUp? service = some u) (booked : t.Booked) :
    Moves t.run .takeUp u.run ∧ u.Booked := by
  unfold takeUp? at h
  split at h
  · cases h
  · next i rest waiting =>
    obtain ⟨run, step, rfl⟩ := Option.map_eq_some_iff.1 h
    have moves := Run.takeUp?_eq_some_iff.1 step
    cases moves with
    | launch waiting' room going =>
      rw [if_neg (by rw [going]; nofun)]
      refine ⟨.launch waiting' room going, ?_⟩
      simp only [Booked, Run.launch, List.map_append]
      rw [booked]
      rfl
    | dismiss waiting' room stopped =>
      rw [if_pos stopped]
      exact ⟨.dismiss waiting' room stopped, booked⟩

lemma finish?_moves {a : Appointment} (h : t.finish? a = some u) (booked : t.Booked) :
    Moves t.run (.complete a.number a.answer) u.run ∧ u.Booked := by
  obtain ⟨run, step, rfl⟩ := Option.map_eq_some_iff.1 h
  have moves := Run.complete?_eq_some_iff.1 step
  cases moves with
  | finish answer active =>
    refine ⟨.finish a.answer active, ?_⟩
    have others := congrArg (List.filter (· != a.number)) booked
    rw [List.filter_map, List.filter_map] at others
    exact others

/-- An event is a move of the run. -/
theorem advance?_moves (h : t.advance? service = some u) (booked : t.Booked) :
    (∃ s, Moves t.run s u.run) ∧ u.Booked := by
  unfold advance? at h
  split at h
  · exact (takeUp?_moves h booked).imp (⟨_, ·⟩) id
  · split_ifs at h
    · exact (finish?_moves h booked).imp (⟨_, ·⟩) id
    · cases taken : t.takeUp? service with
      | some v =>
        rw [taken] at h
        exact (takeUp?_moves (taken.trans h) booked).imp (⟨_, ·⟩) id
      | none =>
        rw [taken] at h
        exact (finish?_moves h booked).imp (⟨_, ·⟩) id

/-- An appointment can be kept. -/
lemma exists_finish? (booked : t.Booked) {a : Appointment} (h : a ∈ t.appointments) :
    ∃ u, t.finish? a = some u := by
  have number : a.number ∈ t.run.active.map (·.1) := booked ▸ List.mem_map.2 ⟨a, h, rfl⟩
  obtain ⟨⟨_, i⟩, active, rfl⟩ := List.mem_map.1 number
  obtain ⟨run, step⟩ := Run.exists_complete active a.answer
  exact ⟨_, Option.map_eq_some_iff.2 ⟨run, step, rfl⟩⟩

/-- As long as a run is not over there is a next event. -/
theorem isOver_of_advance? (h : t.advance? service = none) (booked : t.Booked)
    (room : 1 ≤ t.run.options.maxConcurrency) : t.run.isOver = true := by
  unfold advance? at h
  cases first : earliest? t.appointments with
  | none =>
    rw [first] at h
    have active : t.run.active = [] := by
      have none := booked.symm
      rw [eq_nil_of_earliest? first] at none
      exact List.map_eq_nil_iff.1 none
    refine Run.isOver_iff.2 ⟨?_, active⟩
    cases waiting : t.run.waiting with
    | nil => rfl
    | cons i rest =>
      obtain ⟨run, step⟩ := Run.exists_takeUp waiting (by rw [active]; exact room)
      have taken : t.run.takeUp? = some run := step
      simp [takeUp?, waiting, taken] at h
  | some a =>
    obtain ⟨u, kept⟩ := exists_finish? booked (mem_of_earliest? first)
    rw [first] at h
    dsimp only at h
    rw [kept] at h
    split_ifs at h
    cases taken : t.takeUp? service <;> rw [taken] at h <;> cases h

/-- A run in time follows a schedule, and with an event for every step that is left it comes to its
end. -/
theorem advance_follows (booked : t.Booked) (room : 1 ≤ t.run.options.maxConcurrency) {fuel : Nat}
    (enough : t.run.remaining ≤ fuel) :
    (∃ steps, t.run.follow? steps = some (advance service fuel t).run) ∧
      (advance service fuel t).run.isOver = true := by
  induction fuel generalizing t with
  | zero => exact ⟨⟨[], rfl⟩, Run.isOver_iff_remaining.2 (Nat.le_zero.1 enough)⟩
  | succ fuel ih =>
    cases event : t.advance? service with
    | none =>
      rw [advance, event]
      exact ⟨⟨[], rfl⟩, isOver_of_advance? event booked room⟩
    | some u =>
      rw [advance, event]
      obtain ⟨⟨s, moves⟩, booked'⟩ := advance?_moves event booked
      have left := Run.remaining_lt moves
      obtain ⟨⟨steps, run⟩, finished⟩ :=
        ih booked' (by rw [moves.options]; exact room) (by omega)
      refine ⟨⟨s :: steps, ?_⟩, finished⟩
      rw [Run.follow?_cons, Run.step?_eq_some_iff.2 moves]
      exact run

/-- The run that a service makes of a batch follows a schedule to its end. -/
theorem complete_follows (service : Service) {b : Batch} (room : 1 ≤ b.options.maxConcurrency) :
    (∃ steps, (Run.start b).follow? steps = some (complete service b).run) ∧
      (complete service b).run.isOver = true :=
  advance_follows (t := start b) rfl room (Nat.le_refl _)

end Timeline

end ApiCanon
