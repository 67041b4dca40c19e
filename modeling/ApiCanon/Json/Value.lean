import ApiCanon.Binary.Shortest
import ApiCanon.Text.Search

/-!
# JSON values

The dynamic values of documents, configurations and answers.  An object is the list of its
fields in the order of their first appearance; `Fields.put` keeps the keys distinct, so that a
repeated key keeps its first place and takes the last value.

## Equality

`Value.same` is equality of documents: the order of fields does not count, and numbers are
compared as numbers of their own kind (a whole number is never equal to a fraction).
`canonicalize` sorts the fields at every depth.

## Pointers

A pointer is a list of segments, each behind a slash; in a segment `~1` stands for a slash and
`~0` for a tilde.  A segment names a field of an object or counts into a list.
-/

namespace ApiCanon.Json

/-- A number of a document: a whole number of 64 bits, signed or unsigned, or a binary fraction. -/
inductive Number where
  | int (i : Int)
  | float (x : Binary.Finite)
  deriving DecidableEq, Repr, Inhabited

namespace Number

/-- Equality as numbers: zeros of both signs are equal. -/
def same : Number → Number → Bool
  | int i, int j => i == j
  | float x, float y => x.sameValue y
  | _, _ => false

/-- The number as a double. -/
def toDouble? : Number → Option Binary.Finite
  | int i => Binary.double.round (i < 0) i.natAbs 1
  | float x => some x

/-- The text of a number in a document. -/
def text : Number → String
  | int i => toString i
  | float x => Binary.double.jsonText x

end Number

/-- A value of a document. -/
inductive Value where
  | null
  | bool (b : Bool)
  | number (n : Number)
  | string (s : String)
  | array (items : List Value)
  | object (fields : List (String × Value))
  deriving Repr, Inhabited

/-- The fields of an object, in order. -/
abbrev Fields := List (String × Value)

namespace Fields

/-- Gives a key a value: in its place if the key is there, else at the end. -/
def put (k : String) (v : Value) : Fields → Fields
  | [] => [(k, v)]
  | (k', v') :: r => if k' = k then (k, v) :: r else (k', v') :: put k v r

/-- The value of a key. -/
def get? (k : String) : Fields → Option Value
  | [] => none
  | (k', v) :: r => if k' = k then some v else get? k r

/-- The fields given one after another. -/
def ofList (l : List (String × Value)) : Fields := l.foldl (fun f (k, v) => f.put k v) []

@[simp] theorem get?_nil (k : String) : get? k [] = none := rfl

@[simp] theorem get?_put_self (k : String) (v : Value) (f : Fields) :
    (put k v f).get? k = some v := by
  induction f with
  | nil => simp [put, get?]
  | cons p r ih =>
    obtain ⟨k', v'⟩ := p
    by_cases h : k' = k
    · simp [put, get?, h]
    · simp [put, get?, h, ih]

theorem get?_put_of_ne {k l : String} (h : k ≠ l) (v : Value) (f : Fields) :
    (put k v f).get? l = f.get? l := by
  induction f with
  | nil => simp [put, get?, h]
  | cons p r ih =>
    obtain ⟨k', v'⟩ := p
    by_cases h' : k' = k
    · subst h'; simp [put, get?, h]
    · simp [put, get?, h', ih]

/-- Putting a key keeps the keys distinct. -/
theorem nodup_put {k : String} {v : Value} {f : Fields} (h : (f.map (·.1)).Nodup) :
    ((put k v f).map (·.1)).Nodup := by
  have mem : ∀ {f : Fields} {x : String}, x ∈ (put k v f).map (·.1) → x = k ∨ x ∈ f.map (·.1) := by
    intro f
    induction f with
    | nil => intro x hx; simp [put] at hx; exact Or.inl hx
    | cons p r ih =>
      obtain ⟨k', v'⟩ := p
      intro x hx
      by_cases h' : k' = k
      · subst h'; simp [put] at hx ⊢; rcases hx with rfl | hx <;> simp_all
      · simp only [put, h', if_false, List.map_cons, List.mem_cons] at hx ⊢
        rcases hx with rfl | hx
        · exact Or.inr (Or.inl rfl)
        · rcases ih hx with rfl | hx
          · exact Or.inl rfl
          · exact Or.inr (Or.inr hx)
  induction f with
  | nil => simp [put]
  | cons p r ih =>
    obtain ⟨k', v'⟩ := p
    simp only [List.map_cons, List.nodup_cons] at h
    by_cases h' : k' = k
    · subst h'; simpa [put] using h
    · simp only [put, h', if_false, List.map_cons, List.nodup_cons]
      refine ⟨fun hx => ?_, ih h.2⟩
      rcases mem hx with hx | hx
      · exact h' hx
      · exact h.1 hx

end Fields

namespace Value

/-- The value of a field; none for a value that is not an object. -/
def get? (k : String) : Value → Option Value
  | object f => Fields.get? k f
  | _ => none

def asString? : Value → Option String
  | string s => some s
  | _ => none

def asBool? : Value → Option Bool
  | bool b => some b
  | _ => none

def asArray? : Value → Option (List Value)
  | array a => some a
  | _ => none

def asObject? : Value → Option Fields
  | object f => some f
  | _ => none

/-- A whole number that is not negative. -/
def asNat? : Value → Option Nat
  | number (.int (.ofNat n)) => some n
  | _ => none

def isNull : Value → Bool
  | null => true
  | _ => false

/-- The text of a field, if the field is there and a text. -/
def stringField? (v : Value) (k : String) : Option String := (v.get? k).bind asString?

/-- The texts in a field that is a list; what is not a text in it is passed over. -/
def stringsField (v : Value) (k : String) : List String :=
  match (v.get? k).bind asArray? with
  | some items => items.filterMap asString?
  | none => []

/-- The truth value of a field, or a default. -/
def boolField (v : Value) (k : String) (default : Bool) : Bool :=
  ((v.get? k).bind asBool?).getD default

/-- A whole number that is not negative. -/
def ofNat (n : Nat) : Value := number (.int n)

/-- A text, or null. -/
def ofString? : Option String → Value
  | some s => string s
  | none => null

/-! ## Equality of documents -/

mutual
/-- Whether two values are the same document. -/
def same : Value → Value → Bool
  | null, null => true
  | bool a, bool b => a == b
  | number a, number b => a.same b
  | string a, string b => a == b
  | array a, array b => sameItems a b
  | object a, object b => a.length == b.length && sameFields a b
  | _, _ => false

/-- The items agree one by one. -/
def sameItems : List Value → List Value → Bool
  | [], [] => true
  | x :: xs, y :: ys => same x y && sameItems xs ys
  | _, _ => false

/-- Every field of the first list has the same value in the second. -/
def sameFields : List (String × Value) → List (String × Value) → Bool
  | [], _ => true
  | (k, v) :: r, b =>
    (match Fields.get? k b with
      | some w => same v w
      | none => false) && sameFields r b
end

instance : BEq Value := ⟨same⟩

/-! ## Canonical order -/

/-- Puts a field in front of the first field with a key that is not smaller. -/
def insertField (k : String) (v : Value) : Fields → Fields
  | [] => [(k, v)]
  | (k', v') :: r => if k' < k then (k', v') :: insertField k v r else (k, v) :: (k', v') :: r

mutual
/-- Sorts the fields of all objects by their keys; lists keep their order. -/
def canonicalize : Value → Value
  | object f => object (canonicalFields f)
  | array a => array (canonicalItems a)
  | v => v

def canonicalItems : List Value → List Value
  | [] => []
  | x :: xs => canonicalize x :: canonicalItems xs

def canonicalFields : List (String × Value) → List (String × Value)
  | [] => []
  | (k, v) :: r => insertField k (canonicalize v) (canonicalFields r)
end

end Value

/-! ## Pointers -/

/-- Writes a name as a segment. -/
def escapeSegment (name : List Char) : List Char :=
  name.flatMap fun c => if c = '~' then ['~', '0'] else if c = '/' then ['~', '1'] else [c]

/-- Replaces `~1` by a slash in a whole segment. -/
def unescapeSlashes : List Char → List Char
  | '~' :: '1' :: r => '/' :: unescapeSlashes r
  | c :: r => c :: unescapeSlashes r
  | [] => []

/-- Replaces `~0` by a tilde in a whole segment. -/
def unescapeTildes : List Char → List Char
  | '~' :: '0' :: r => '~' :: unescapeTildes r
  | c :: r => c :: unescapeTildes r
  | [] => []

/-- The name that a segment stands for. -/
def unescapeSegment (s : List Char) : List Char := unescapeTildes (unescapeSlashes s)

/-- The place in a list that a segment names: digits without a zero in front. -/
def listIndex? (s : List Char) : Option Nat :=
  match s with
  | [] => none
  | ['0'] => some 0
  | '0' :: _ => none
  | s => if s.all Char.isDigit then some (s.foldl (fun n c => 10 * n + (c.toNat - 48)) 0) else none

/-- The value that a list of names leads to. -/
def Value.follow : Value → List (List Char) → Option Value
  | v, [] => some v
  | .object f, n :: r => (Fields.get? (String.ofList n) f).bind fun v => v.follow r
  | .array a, n :: r => ((listIndex? n).bind fun i => a[i]?).bind fun v => v.follow r
  | _, _ :: _ => none
termination_by _ names => names.length

/-- The value that a pointer leads to. -/
def Value.pointer? (v : Value) (pointer : List Char) : Option Value :=
  match pointer with
  | [] => some v
  | '/' :: r => v.follow ((Text.splitAll (· == '/') r).map unescapeSegment)
  | _ => none

end ApiCanon.Json
