import ApiCanon.Digest.Sha256
import ApiCanon.Error
import ApiCanon.Service.Request
import ApiCanon.Text.Blank

/-!
# Batches

A batch is a list of requests with identifiers, frozen after a check: no identifier is blank or
occurs twice, and at least one item may be under way at a time.  Its own identifier is derived
from the kinds and the identifiers of its items.
-/

namespace ApiCanon

open Json (Value Decoder)

/-- What happens to the rest of a batch when an item fails. -/
inductive FailureStrategy where
  /-- The other items are processed all the same. -/
  | carryOn
  /-- No further item is taken up. -/
  | abort
  deriving DecidableEq, Repr, Inhabited

namespace FailureStrategy

def text : FailureStrategy → String
  | carryOn => "continue"
  | abort => "abort"

def known : List (String × FailureStrategy) := [("continue", carryOn), ("abort", abort)]

/-- Reads a strategy in any case. -/
def ofText? (s : String) : Option FailureStrategy := known.lookup (Text.lower s)

/-- The complaint about a text that is no strategy. -/
def unknownMessage (s : String) : String :=
  s!"Unknown failure strategy: {Text.lower s}. Supported: continue, abort"

def decode : Decoder FailureStrategy := .variant known

end FailureStrategy

/-- How a batch is run. -/
structure BatchOptions where
  maxConcurrency : Nat
  failureStrategy : FailureStrategy
  itemTimeout : Option Span
  deriving DecidableEq, Repr, Inhabited

/-- The number of items under way at a time unless told otherwise. -/
def defaultConcurrency : Nat := 4

/-- An item of a batch. -/
structure BatchItem where
  id : String
  kind : ItemKind
  payload : Value
  context : Option Value
  deriving Inhabited

namespace BatchItem

def request (i : BatchItem) : ServiceRequest := ⟨i.kind, i.payload, i.context⟩

def decode : Decoder BatchItem :=
  .record "struct BatchItem" 4 fun s =>
    BatchItem.mk <$> s.required 0 "id" .text
      <*> s.required 1 "kind" ItemKind.decode
      <*> s.required 2 "payload" .any
      <*> s.optional 3 "context" .any

end BatchItem

/-- A batch that has passed the check. -/
structure Batch where
  id : String
  items : List BatchItem
  options : BatchOptions
  deriving Inhabited

namespace Batch

/-- The first thing wrong with the items from number `index` on, given the identifiers before. -/
def itemFault? (seen : List String) (index : Nat) : List BatchItem → Option String
  | [] => none
  | i :: r =>
    if Text.isBlankText i.id then some s!"item #{index} has an empty id"
    else if seen.contains i.id then some s!"duplicate item id '{i.id}'"
    else itemFault? (i.id :: seen) (index + 1) r

/-- What the identifier of a batch is derived from: a line for each item. -/
def fingerprint (items : List BatchItem) : String :=
  "\n".intercalate (items.map fun i => i.kind.text ++ ":" ++ i.id)

/-- Checks and freezes a batch. -/
def make (items : List BatchItem) (options : BatchOptions) : Except AppError Batch :=
  if options.maxConcurrency = 0 then
    .error (.invalidBatch "max_concurrency must be at least 1")
  else match itemFault? [] 0 items with
    | some reason => .error (.invalidBatch reason)
    | none => .ok ⟨contentId "batch" (Bytes.ofString (fingerprint items)), items, options⟩

end Batch

end ApiCanon
