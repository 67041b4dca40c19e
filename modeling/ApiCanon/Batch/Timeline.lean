import ApiCanon.Batch.Ledger

/-!
# Runs of a batch

A run moves by two kinds of steps.  An **admission** takes up the next item in the order of
submission, while fewer items are under way than the options allow.  A **completion** ends one of
the items under way, in any order.  After a failure under the strategy `abort` the items admitted
later are cancelled at once; those under way still end in their own way.

What an item is answered is no part of the run: every step that needs an answer is given it.
So the steps describe all schedules, and a schedule is a list of steps.

## Runs in time

The schedule that a service makes of a batch.  Every item takes a span of time that is known when
it is taken up, so the next event is always the earliest end of an item under way.  Items whose
end has come are ended first; then items are taken up as long as there is room; then time passes.
-/

namespace ApiCanon

/-- A batch under way.  Items are known by their number in the order of submission. -/
structure Run where
  options : BatchOptions
  /-- The number of the next item to be admitted. -/
  next : Nat
  waiting : List BatchItem
  /-- The items under way, in the order of admission. -/
  active : List (Nat × BatchItem)
  /-- The items that have ended, in the order of their ends. -/
  done : List (Nat × ItemOutcome)
  /-- Whether the items still waiting are to be cancelled. -/
  stopped : Bool
  deriving Inhabited

namespace Run

/-- A run before its first step. -/
def start (b : Batch) : Run := ⟨b.options, 0, b.items, [], [], false⟩

/-- Whether nothing is left to be done. -/
def isOver (r : Run) : Bool := r.waiting.isEmpty && r.active.isEmpty

/-- Whether there is room for another item. -/
def hasRoom (r : Run) : Bool := r.active.length < r.options.maxConcurrency

/-- Takes up the next item, or cancels it when the run has been stopped. -/
def takeUp? (r : Run) : Option Run :=
  match r.waiting with
  | [] => none
  | i :: rest =>
    if !r.hasRoom then none
    else if r.stopped then
      some { r with
        next := r.next + 1, waiting := rest,
        done := r.done ++ [(r.next, .of i .cancelled)] }
    else
      some { r with next := r.next + 1, waiting := rest, active := r.active ++ [(r.next, i)] }

/-- Ends an item under way with an answer. -/
def complete? (r : Run) (number : Nat) (answer : Except ServiceError ServiceResponse) :
    Option Run :=
  match r.active.lookup number with
  | none => none
  | some i =>
    let ending := Ending.ofResult answer
    some { r with
      active := r.active.filter fun p => p.1 != number
      done := r.done ++ [(number, .of i ending)]
      stopped := r.stopped || (r.options.failureStrategy == .abort && ending.isFailure) }

/-- The outcomes in the order of submission. -/
def outcomes (r : Run) : List ItemOutcome :=
  (r.done.mergeSort fun a b => a.1 ≤ b.1).map (·.2)

/-- The ledger of a run that is over. -/
def ledger (r : Run) (batchId : String) : Ledger :=
  ⟨batchId, r.options.failureStrategy, r.outcomes⟩

/-! ## Schedules -/

/-- A step of a run. -/
inductive Step where
  | takeUp
  | complete (number : Nat) (answer : Except ServiceError ServiceResponse)

/-- Takes one step, if it is possible. -/
def step? (r : Run) : Step → Option Run
  | .takeUp => r.takeUp?
  | .complete number answer => r.complete? number answer

/-- Takes the steps of a schedule one after another. -/
def follow? (r : Run) : List Step → Option Run
  | [] => some r
  | s :: rest => (r.step? s).bind (·.follow? rest)

@[simp] theorem follow?_nil (r : Run) : r.follow? [] = some r := rfl

theorem follow?_cons (r : Run) (s : Step) (l : List Step) :
    r.follow? (s :: l) = (r.step? s).bind (·.follow? l) := rfl

end Run

/-! ## Time -/

/-- An item under way, in time. -/
structure Appointment where
  number : Nat
  /-- When the item ends, in nanoseconds from the start of the batch. -/
  due : Nat
  answer : Except ServiceError ServiceResponse
  /-- Whether the item is cut off, so that its call to the service never returns. -/
  cutOff : Bool

/-- A run in time. -/
structure Timeline where
  run : Run
  now : Nat
  appointments : List Appointment
  /-- The number of calls to the service. -/
  calls : Nat
  /-- The number of calls that have not returned, those cut off included. -/
  openCalls : Nat
  /-- The greatest number of open calls at a time. -/
  peak : Nat

namespace Timeline

def start (b : Batch) : Timeline := ⟨Run.start b, 0, [], 0, 0, 0⟩

/-- The work on an item: a call to the service under the limit for an item. -/
def workOn (service : Service) (o : BatchOptions) (i : BatchItem) :
    Work ServiceError ServiceResponse :=
  itemWithin o.itemTimeout (i.kind.text ++ " item " ++ i.id) (service i.request)

/-- The earliest end; of equal ones that of the item taken up first. -/
def earliest? : List Appointment → Option Appointment
  | [] => none
  | a :: r =>
    match earliest? r with
    | none => some a
    | some b => if a.due ≤ b.due then some a else some b

/-- Ends an item at its time. -/
def finish? (t : Timeline) (a : Appointment) : Option Timeline :=
  (t.run.complete? a.number a.answer).map fun run =>
    { t with
      run := run, now := max t.now a.due,
      openCalls := if a.cutOff then t.openCalls else t.openCalls - 1,
      appointments := t.appointments.filter fun b => b.number != a.number }

/-- Takes up the next item and calls the service for it, unless it is cancelled. -/
def takeUp? (service : Service) (t : Timeline) : Option Timeline :=
  match t.run.waiting with
  | [] => none
  | i :: _ =>
    t.run.takeUp?.map fun run =>
      if t.run.stopped then { t with run := run }
      else
        let w := workOn service t.run.options i
        let cutOff := w.duration.nanos < (service i.request).duration.nanos
        { t with
          run := run, calls := t.calls + 1, openCalls := t.openCalls + 1,
          peak := max t.peak (t.openCalls + 1),
          appointments :=
            t.appointments ++ [⟨t.run.next, t.now + w.duration.nanos, w.result, cutOff⟩] }

/-- The next event. -/
def advance? (service : Service) (t : Timeline) : Option Timeline :=
  match earliest? t.appointments with
  | none => t.takeUp? service
  | some a =>
    if a.due ≤ t.now then t.finish? a
    else (t.takeUp? service).orElse fun _ => t.finish? a

/-- Lets at most `fuel` events happen. -/
def advance (service : Service) : Nat → Timeline → Timeline
  | 0, t => t
  | fuel + 1, t =>
    match t.advance? service with
    | none => t
    | some u => advance service fuel u

/-- Runs a batch to its end: every item is taken up once and ends once. -/
def complete (service : Service) (b : Batch) : Timeline :=
  advance service (2 * b.items.length) (start b)

end Timeline

/-- What becomes of a batch. -/
def Batch.run (service : Service) (b : Batch) : Ledger :=
  (Timeline.complete service b).run.ledger b.id

end ApiCanon
