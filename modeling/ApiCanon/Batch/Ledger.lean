import ApiCanon.Batch.Basic
import ApiCanon.Service.Provider

/-!
# Ledgers

What became of a batch: one outcome for each item in the order of submission, and the counts and
the status that follow from them.
-/

namespace ApiCanon

open Json (Value)

/-- How an item ended. -/
inductive ItemStatus where
  | success
  | failed
  | cancelled
  deriving DecidableEq, Repr, Inhabited

def ItemStatus.text : ItemStatus → String
  | success => "success"
  | failed => "failed"
  | cancelled => "cancelled"

/-- What became of an item. -/
inductive Ending where
  | answered (response : ServiceResponse)
  | failed (error : ServiceError)
  /-- The item was never taken up. -/
  | cancelled
  deriving Inhabited

namespace Ending

def ofResult : Except ServiceError ServiceResponse → Ending
  | .ok r => answered r
  | .error e => failed e

def status : Ending → ItemStatus
  | answered _ => .success
  | failed _ => .failed
  | cancelled => .cancelled

def isFailure : Ending → Bool
  | failed _ => true
  | _ => false

def response? : Ending → Option ServiceResponse
  | answered r => some r
  | _ => none

end Ending

/-- The entry of an item in the ledger. -/
structure ItemOutcome where
  id : String
  kind : ItemKind
  ending : Ending
  deriving Inhabited

namespace ItemOutcome

def of (i : BatchItem) (e : Ending) : ItemOutcome := ⟨i.id, i.kind, e⟩

def status (o : ItemOutcome) : ItemStatus := o.ending.status

end ItemOutcome

/-- How a batch ended. -/
inductive BatchStatus where
  | success
  | partly
  | failed
  deriving DecidableEq, Repr, Inhabited

def BatchStatus.text : BatchStatus → String
  | success => "success"
  | partly => "partial"
  | failed => "failed"

/-- What became of a batch. -/
structure Ledger where
  batchId : String
  strategy : FailureStrategy
  /-- One outcome for each item, in the order of submission. -/
  outcomes : List ItemOutcome
  deriving Inhabited

namespace Ledger

/-- The number of items that ended in one way. -/
def count (l : Ledger) (s : ItemStatus) : Nat := (l.outcomes.filter fun o => o.status == s).length

def total (l : Ledger) : Nat := l.outcomes.length

/-- A batch succeeds when no item failed; otherwise it fails, unless the rest was carried on
with and some item succeeded. -/
def status (l : Ledger) : BatchStatus :=
  if l.count .failed = 0 then .success
  else if l.strategy = .abort ∨ l.count .success = 0 then .failed
  else .partly

def outcome? (l : Ledger) (id : String) : Option ItemOutcome := l.outcomes.find? fun o => o.id == id

theorem total_eq (l : Ledger) :
    l.count .success + l.count .failed + l.count .cancelled = l.total := by
  unfold count total
  induction l.outcomes with
  | nil => rfl
  | cons o r ih =>
    cases h : o.status <;> simp [h] <;> omega

end Ledger

/-! ## JSON -/

/-- The confidence is written with as many digits as single precision needs. -/
def ServiceResponse.toJson (r : ServiceResponse) : Value :=
  let c := (Binary.single.reread? Binary.double r.confidence).getD r.confidence
  .object [("result", r.result), ("confidence", .number (.float c))]

def ItemOutcome.toJson (o : ItemOutcome) : Value :=
  .object <|
    [("id", .string o.id), ("kind", .string o.kind.text), ("status", .string o.status.text)] ++
      match o.ending with
      | .answered r => [("result", r.toJson)]
      | .failed e => [("error", e.toJson)]
      | .cancelled => []

def Ledger.toJson (l : Ledger) : Value :=
  .object
    [("batchId", .string l.batchId), ("status", .string l.status.text),
      ("totalItems", .ofNat l.total), ("successCount", .ofNat (l.count .success)),
      ("failureCount", .ofNat (l.count .failed)),
      ("cancelledCount", .ofNat (l.count .cancelled)),
      ("outcomes", .array (l.outcomes.map ItemOutcome.toJson))]

end ApiCanon
