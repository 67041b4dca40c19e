import ApiCanon.Json.Value
import ApiCanon.Text.Literal

/-!
# Decoding values

How a JSON value becomes a value of a domain type, and why it may not.  A decoder of a record
looks at the fields of an object; fields that are not asked for do not matter.

## Which fault is reported

The fields of an object are read in the order in which they are written, and the first faulty
one is reported; only if none is faulty, a missing field is, in the order of the record.  An
`Outcome` therefore keeps the place of its fault, and putting two outcomes together keeps the
earlier one.  A record may also be written as the list of its fields in order.
-/

namespace ApiCanon.Json

/-- Why a value is not one of a domain type. -/
inductive DecodeError where
  /-- The value is of another kind than the expected one. -/
  | wrongKind (found : Value) (expected : String)
  /-- The value is of the right kind, but not one of the expected ones. -/
  | wrongValue (found : Value) (expected : String)
  | missingField (name : String)
  | unknownVariant (name : String) (known : List String)
  | wrongLength (length : Nat) (expected : String)
  /-- A text that does not denote a value of its type, with the reason. -/
  | malformed (reason : String)
  deriving Inhabited

/-- How a value is named in a message. -/
def Value.shown : Value → String
  | .null => "null"
  | .bool b => s!"boolean `{b}`"
  | .number (.int i) => s!"integer `{i}`"
  | .number (.float x) => s!"floating point `{Binary.double.jsonText x}`"
  | .string s => "string " ++ Text.literal s
  | .array _ => "sequence"
  | .object _ => "map"

/-- A choice among names. -/
def oneOf : List String → String
  | [] => "there are no variants"
  | [a] => s!"expected `{a}`"
  | [a, b] => s!"expected `{a}` or `{b}`"
  | l => "expected one of " ++ ", ".intercalate (l.map fun a => s!"`{a}`")

def DecodeError.message : DecodeError → String
  | wrongKind found expected => s!"invalid type: {found.shown}, expected {expected}"
  | wrongValue found expected => s!"invalid value: {found.shown}, expected {expected}"
  | missingField name => s!"missing field `{name}`"
  | unknownVariant name known => s!"unknown variant `{name}`, {oneOf known}"
  | wrongLength n expected => s!"invalid length {n}, expected {expected}"
  | malformed reason => reason

/-- A reader of values. -/
abbrev Decoder (α : Type) := Value → Except DecodeError α

/-! ## Simple values -/

namespace Decoder

def text : Decoder String
  | .string s => .ok s
  | v => .error (.wrongKind v "a string")

def bool : Decoder Bool
  | .bool b => .ok b
  | v => .error (.wrongKind v "a boolean")

/-- Any value, as it stands. -/
def any : Decoder Value := .ok

/-- A whole number from 0 up to, and without, `bound`. -/
def natBelow (bound : Nat) (expected : String) : Decoder Nat
  | .number (.int i) =>
    if 0 ≤ i ∧ i < bound then .ok i.toNat
    else .error (.wrongValue (.number (.int i)) expected)
  | v => .error (.wrongKind v expected)

def u32 : Decoder Nat := natBelow (Nat.pow 2 32) "u32"

def u64 : Decoder Nat := natBelow (Nat.pow 2 64) "u64"

/-- A size or a count. -/
def size : Decoder Nat := natBelow (Nat.pow 2 64) "usize"

/-- A value or null. -/
def optional {α : Type} (d : Decoder α) : Decoder (Option α)
  | .null => .ok none
  | v => (d v).map some

def list {α : Type} (d : Decoder α) : Decoder (List α)
  | .array a => a.mapM d
  | v => .error (.wrongKind v "a sequence")

/-- The entries of an object. -/
def entries {α : Type} (d : Decoder α) : Decoder (List (String × α))
  | .object f => f.mapM fun (k, v) => (d v).map fun a => (k, a)
  | v => .error (.wrongKind v "a map")

/-- Null and nothing else. -/
def unit : Decoder Unit
  | .null => .ok ()
  | v => .error (.wrongKind v "unit")

/-- The name of one of finitely many values; also as the single key of an object, over null. -/
def variant {α : Type} (known : List (String × α)) : Decoder α
  | .string s =>
    match known.lookup s with
    | some a => .ok a
    | none => .error (.unknownVariant s (known.map (·.1)))
  | .object [(s, v)] =>
    match known.lookup s with
    | some a => (unit v).map fun _ => a
    | none => .error (.unknownVariant s (known.map (·.1)))
  | .object f => .error (.wrongValue (.object f) "map with a single key")
  | v => .error (.wrongKind v "string or map")

end Decoder

/-! ## Records -/

/-- A value, or the earliest fault with its place among the fields. -/
inductive Outcome (α : Type) where
  | value (a : α)
  | fault (place : Nat) (e : DecodeError)

namespace Outcome

/-- Applies a function to a value; of two faults the earlier one counts, of two at one place
the first. -/
def seq {α β : Type} (f : Outcome (α → β)) (x : Unit → Outcome α) : Outcome β :=
  match f, x () with
  | value f, value a => value (f a)
  | value _, fault p e => fault p e
  | fault p e, value _ => fault p e
  | fault p e, fault q e' => if q < p then fault q e' else fault p e

instance : Applicative Outcome where
  pure := value
  seq := seq

def toExcept {α : Type} : Outcome α → Except DecodeError α
  | value a => .ok a
  | fault _ e => .error e

end Outcome

/-- What the fields of a record are read from: an object, or the list of the fields. -/
inductive Source where
  | fields (f : Fields)
  | items (record : String) (count : Nat) (a : List Value)

/-- The place and the value of a key. -/
def Fields.find? (k : String) (start : Nat) : Fields → Option (Nat × Value)
  | [] => none
  | (k', v) :: r => if k' = k then some (start, v) else find? k (start + 1) r

/-- "1 element", "2 elements". -/
def elements (n : Nat) : String := if n = 1 then "1 element" else s!"{n} elements"

namespace Source

/-- The value of a field, with its place. -/
def find? (s : Source) (index : Nat) (name : String) : Option (Nat × Value) :=
  match s with
  | fields f => f.find? name 0
  | items _ _ a => a[index]?.map fun v => (index, v)

/-- The fault of a field that is not there. -/
def missing {α : Type} (s : Source) (index : Nat) (name : String) : Outcome α :=
  match s with
  | fields f => .fault f.length (.missingField name)
  | items record count _ =>
    .fault index (.wrongLength index s!"{record} with {elements count}")

/-- A field that must be there. -/
def required {α : Type} (s : Source) (index : Nat) (name : String) (d : Decoder α) : Outcome α :=
  match s.find? index name with
  | some (place, v) =>
    match d v with
    | .ok a => .value a
    | .error e => .fault place e
  | none => s.missing index name

/-- A field with a default. -/
def withDefault {α : Type} (s : Source) (index : Nat) (name : String) (d : Decoder α)
    (default : α) : Outcome α :=
  match s.find? index name with
  | some (place, v) =>
    match d v with
    | .ok a => .value a
    | .error e => .fault place e
  | none => .value default

/-- A field that may be missing or null. -/
def optional {α : Type} (s : Source) (index : Nat) (name : String) (d : Decoder α) :
    Outcome (Option α) :=
  s.withDefault index name d.optional none

end Source

/-- A record of `count` fields, from an object or from a list of no more than its fields.
`record` names the record in messages. -/
def Decoder.record {α : Type} (record : String) (count : Nat) (build : Source → Outcome α) :
    Decoder α
  | .object f => (build (.fields f)).toExcept
  | .array a =>
    match build (.items record count a) with
    | .fault _ e => .error e
    | .value x =>
      if count < a.length then .error (.wrongLength a.length "fewer elements in array") else .ok x
  | v => .error (.wrongKind v record)

end ApiCanon.Json
