import ApiCanon.Binary.Decimal
import ApiCanon.Json.Value
import ApiCanon.Text.Bytes
import ApiCanon.Yaml.Fault
import ApiCanon.Yaml.Node

/-!
# Values of YAML documents

The value of a text with a single document.  Keys are texts, whatever they would stand for as
values; a repeated key keeps its first place and takes the last value.

A plain scalar is empty, a truth value, a number or else a text; any other one is a text.  A tag of
the core types asks for one of them.  Numbers with needless zeros in front are texts.  A whole
number beyond 64 bits has no value unless it is beyond 128 bits too, where it is a fraction.

An alias has the value of what its anchor marks, worked out anew each time.  At most 128 collections
lie inside of one another, and there are at most a hundred aliases for each part of the document.
-/

namespace ApiCanon.Yaml

open Json (Value Fields)

/-! ## Truth values -/

/-- Whether a text stands for nothing. -/
def isNullText (s : String) : Bool := ["null", "Null", "NULL", "~"].contains s

/-- The truth value of a text. -/
def truth? (s : String) : Option Bool :=
  match s with
  | "true" | "True" | "TRUE" => some true
  | "false" | "False" | "FALSE" => some false
  | _ => none

/-! ## Numbers -/

/-- Whether a number has needless zeros in front. -/
def hasNeedlessZeros (s : List Char) : Bool :=
  let digits := match s with
    | '-' :: r => r
    | '+' :: r => r
    | _ => s
  digits.length > 1 && digits.head? == some '0' && digits.all Char.isDigit

/-- The number that digits of a base stand for; there is at least one. -/
def ofDigits? (base : Nat) (digits : List Char) : Option Nat :=
  if digits.isEmpty then none
  else digits.foldlM (fun acc c =>
    ((Bytes.hexValue? c).filter (· < base)).map fun d => acc * base + d) 0

/-- The magnitude of a whole number without a sign; a zero and a letter tell its base. -/
def magnitude? (s : List Char) : Option Nat :=
  match s with
  | '0' :: 'x' :: r => ofDigits? 16 r
  | '0' :: 'o' :: r => ofDigits? 8 r
  | '0' :: 'b' :: r => ofDigits? 2 r
  | _ => ofDigits? 10 s

/-- A whole number. -/
def wholeNumber? (s : List Char) : Option Int :=
  if hasNeedlessZeros s then none
  else match s with
    | '-' :: r => (magnitude? r).map fun n => -(n : Int)
    | '+' :: r => (magnitude? r).map fun n => (n : Int)
    | _ => (magnitude? s).map fun n => (n : Int)

/-- The value of a whole number; none if it is beyond 128 bits. -/
def wholeValue? (i : Int) : Option (Except Mismatch Value) :=
  if -Nat.pow 2 63 ≤ i && i < Nat.pow 2 64 then some (.ok (.number (.int i)))
  else if -Nat.pow 2 127 ≤ i && i < Nat.pow 2 128 then some (.error .numberOutOfRange)
  else none

/-- The value of a text as a whole number, if it is one. -/
def intValue? (s : String) : Option (Except Mismatch Value) :=
  (wholeNumber? s.toList).bind wholeValue?

/-- The value of a text as a fraction, if it is one.  Those that are not finite have no number. -/
def floatValue? (s : String) : Option Value :=
  let positive? := match s.toList with
    | '+' :: '+' :: _ => none
    | '+' :: '-' :: _ => none
    | '+' :: r => some r
    | r => some r
  match positive? with
  | none => none
  | some r =>
    if [".inf", ".Inf", ".INF"].contains (String.ofList r) then some .null
    else if ["-.inf", "-.Inf", "-.INF", ".nan", ".NaN", ".NAN"].contains s then some .null
    else (Binary.double.ofText? r).map fun x => .number (.float x)

/-! ## Scalars -/

/-- The value of a plain scalar without a tag. -/
def plainValue (s : String) : Except Mismatch Value :=
  if s.isEmpty || isNullText s then .ok .null
  else match truth? s with
    | some b => .ok (.bool b)
    | none =>
      match intValue? s with
      | some r => r
      | none =>
        match if hasNeedlessZeros s.toList then none else floatValue? s with
        | some v => .ok v
        | none => .ok (.string s)

/-- The value of a scalar with a tag other than a local one. -/
def taggedValue (tag s : String) : Except Mismatch Value :=
  match tag with
  | "tag:yaml.org,2002:bool" =>
    match truth? s with
    | some b => .ok (.bool b)
    | none => .error (.notBoolean s)
  | "tag:yaml.org,2002:int" => (intValue? s).getD (.error (.notInteger s))
  | "tag:yaml.org,2002:float" =>
    match floatValue? s with
    | some v => .ok v
    | none => .error (.notFloat s)
  | "tag:yaml.org,2002:null" => if isNullText s then .ok .null else .error (.notNull s)
  | _ => .ok (.string s)

/-- The value of a scalar.  A local tag makes it a value of its own kind, which is none here. -/
def scalarValue (tag? : Option String) (plain : Bool) (s : String) : Except Mismatch Value :=
  match tag? with
  | some tag => taggedValue tag s
  | none => if plain then plainValue s else .ok (.string s)

/-! ## Trees -/

namespace Node

mutual

/-- The number of parts of a tree; a collection has a beginning and an end. -/
def size : Node → Nat
  | .scalar _ _ _ _ => 1
  | .sequence _ _ items => sizeOfItems items + 2
  | .mapping _ _ entries => sizeOfEntries entries + 2
  | .aliasOf _ => 1
  | .broken _ => 0

def sizeOfItems : List Node → Nat
  | [] => 0
  | x :: r => x.size + sizeOfItems r

def sizeOfEntries : List (Node × Node) → Nat
  | [] => 0
  | (k, v) :: r => k.size + v.size + sizeOfEntries r

end

end Node

/-- What aliases stand for, and how many of them may be followed. -/
structure Aliases where
  anchors : List (Nat × Node)
  limit : Nat

/-- A computation that counts the aliases followed. -/
abbrev Evaluation := StateT Nat (Except ReadError)

/-- The node that an alias stands for; any other node stands for itself. -/
def Aliases.follow (a : Aliases) (x : Node) : Evaluation Node :=
  match x with
  | .aliasOf n => do
    let followed := (← get) + 1
    set followed
    if followed > a.limit then throw .tooManyAliases
    else pure ((a.anchors.reverse.lookup n).getD x)
  | _ => pure x

/-- Whether a tag is a local one. -/
def isLocalTag (tag? : Option String) : Bool := tag?.any fun t => t.toList.head? == some '!'

/-- Gives a mismatch its place. -/
def placed (path : Path) (m : Mark) (r : Except Mismatch Value) : Evaluation Value :=
  match r with
  | .ok v => pure v
  | .error e => throw (.mismatch path m e)

/-- The key of an entry, and the path of its value. -/
def keyOf (a : Aliases) (path : Path) (first : Bool) (k : Node) : Evaluation (String × Path) := do
  let direct := match k with
    | .aliasOf _ => false
    | _ => true
  match ← a.follow k with
  | .scalar _ _ _ text => pure (text, if direct then .field path text else .unnamed path)
  | .sequence m _ _ => throw (.mismatch path m (.sequenceKey first))
  | .mapping m _ _ => throw (.mismatch path m (.mappingKey first))
  | .broken e => throw e
  | .aliasOf _ => pure ("", path)

/-- The value of a node, given that of the nodes inside of it, if there may be any. -/
def evaluate (a : Aliases) (inner? : Option (Path → Node → Evaluation Value)) (path : Path)
    (x : Node) : Evaluation Value := do
  match ← a.follow x with
  | .scalar m tag? plain text =>
    if isLocalTag tag? then throw (.mismatch path m .tagged)
    else placed path m (scalarValue tag? plain text)
  | .sequence m tag? items =>
    if isLocalTag tag? then throw (.mismatch path m .tagged)
    else match inner? with
      | none => throw (.tooDeep m)
      | some inner =>
        let values ← items.zipIdx.mapM fun (y, i) => inner (.item path i) y
        pure (.array values)
  | .mapping m tag? entries =>
    if isLocalTag tag? then throw (.mismatch path m .tagged)
    else match inner? with
      | none => throw (.tooDeep m)
      | some inner =>
        let fields ← entries.zipIdx.foldlM (fun (f : Fields) ((k, v), i) => do
          let (key, below) ← keyOf a path (i == 0) k
          pure (f.put key (← inner below v))) []
        pure (.object fields)
  | .broken e => throw e
  | .aliasOf _ => pure .null

/-- The value of a node of which at most `depth` collections lie inside of one another. -/
def valueOf (a : Aliases) : Nat → Path → Node → Evaluation Value
  | 0 => evaluate a none
  | depth + 1 => evaluate a (some (valueOf a depth))

/-- The number of collections that may lie inside of one another. -/
def depthLimit : Nat := 128

/-- The value of a document. -/
def Document.value (d : Document) : Except ReadError Value :=
  match d.root? with
  | none => .ok .null
  | some root => do
    let (v, _) ← (valueOf ⟨d.anchors, 100 * root.size⟩ depthLimit .root root).run 0
    match d.fault? with
    | some f => throw (.malformed f)
    | none => if d.continued then throw .severalDocuments else pure v

/-- The first character that may not stand in a document, with the number of bytes in front. -/
def forbiddenAt? (offset : Nat) : List Char → Option Nat
  | [] => none
  | c :: r => if isAllowed c then forbiddenAt? (offset + c.utf8Size) r else some offset

/-- Reads a text with a single document. -/
def read (text : List Char) : Except ReadError Value :=
  match forbiddenAt? 0 text with
  | some offset => .error (.malformed ⟨.controlCharacter, .zero, offset, none⟩)
  | none => (Document.ofTokens (tokens text)).value

end ApiCanon.Yaml
