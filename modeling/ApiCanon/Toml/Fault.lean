import ApiCanon.Text.Bytes

/-!
# Faults of a TOML document

A document is read up to its first fault.  A complaint names what was being read, what would
have been right there, and the rule that was broken; any of the three may be missing.  A fault
adds the place, as the number of characters that follow it.

A fault is final if nothing else can be meant at its place.  After a fault that is not final the
reader of a list takes the list for finished.

## The report

The report shows the line of the fault with a mark below it.  Lines and columns count from 1.  A
column counts characters, but bytes if the character at fault is not ASCII.  Behind the last
character the place is one column to the right of it, even if it is a line break.
-/

namespace ApiCanon.Toml

/-- A rule of the format that a document breaks. -/
inductive Breach where
  /-- A key is given twice in the table of a path; without the path, a table is opened anew. -/
  | duplicate (key : String) (table : Option (List String))
  /-- A path of keys leads through something that is no table. -/
  | passing (path : List String) (kind : String)
  | outOfRange
  | tooLarge
  | tooSmall
  | tooDeep
  deriving DecidableEq, Repr

def Breach.message : Breach → String
  | duplicate key none => s!"duplicate key \x60{key}\x60"
  | duplicate key (some []) => s!"duplicate key \x60{key}\x60 in document root"
  | duplicate key (some path) =>
    "duplicate key \x60" ++ key ++ "\x60 in table \x60" ++ ".".intercalate path ++ "\x60"
  | passing path kind =>
    "dotted key \x60" ++ ".".intercalate path ++ "\x60 attempted to extend non-table type (" ++
      kind ++ ")"
  | outOfRange => "value is out of range"
  | tooLarge => "number too large to fit in target type"
  | tooSmall => "number too small to fit in target type"
  | tooDeep => "recursion limit exceeded"

/-- What is wrong at a place. -/
structure Complaint where
  subject : Option String
  expected : List String
  breach : Option Breach
  deriving DecidableEq, Repr, Inhabited

namespace Complaint

def nothing : Complaint := ⟨none, [], none⟩

/-- The complaint on up to three lines. -/
def message (c : Complaint) : String :=
  "\n".intercalate <|
    (c.subject.map fun s => "invalid " ++ s).toList ++
      (if c.expected.isEmpty then [] else ["expected " ++ ", ".intercalate c.expected]) ++
      (c.breach.map Breach.message).toList

end Complaint

/-- A complaint at a place. -/
structure Fault where
  complaint : Complaint
  /-- The number of characters from the place on. -/
  left : Nat
  final : Bool
  deriving DecidableEq, Repr, Inhabited

namespace Fault

/-- A fault in front of `rest` that leaves other readings open. -/
def before (rest : List Char) (c : Complaint) : Fault := ⟨c, rest.length, false⟩

/-- A broken rule in front of `rest`. -/
def breaking (rest : List Char) (b : Breach) : Fault := ⟨⟨none, [], some b⟩, rest.length, false⟩

/-- Something else was expected in front of `rest`, and nothing else can be meant. -/
def expecting (rest : List Char) (expected : List String) : Fault :=
  ⟨⟨none, expected, none⟩, rest.length, true⟩

/-! ## The report -/

/-- The line of a fault, its number and the column, both counted from 0. -/
structure Place where
  line : Nat
  column : Nat
  content : List Char
  deriving DecidableEq, Repr

/-- Splits a text into the part in front of a number of characters and those. -/
def splitLeft (source : List Char) (left : Nat) : List Char × List Char :=
  (source.take (source.length - left), source.drop (source.length - left))

/-- What follows the last line break. -/
def lastLine (s : List Char) : List Char := (s.reverse.takeWhile (· != '\n')).reverse

def firstLine (s : List Char) : List Char := s.takeWhile (· != '\n')

/-- The place of a fault in its document. -/
def place (source : List Char) (f : Fault) : Place :=
  match splitLeft source f.left with
  | (read, c :: rest) =>
    let line := lastLine read
    ⟨read.count '\n', if c.toNat < 128 then line.length else utf8Length line,
      line ++ firstLine (c :: rest)⟩
  | (read, []) =>
    let before := read.dropLast
    let line := lastLine before
    ⟨before.count '\n', if read.isEmpty then 0 else line.length + 1,
      line ++ firstLine (read.drop before.length)⟩

/-- The number of marks below the line: one for each byte of the character within the line. -/
def marks (source : List Char) (f : Fault) : Nat :=
  let p := f.place source
  let width := match (splitLeft source f.left).2 with
    | c :: _ => c.utf8Size
    | [] => 0
  max 1 (min width (utf8Length p.content - p.column))

/-- The report on a fault. -/
def report (source : List Char) (f : Fault) : String :=
  let p := f.place source
  let number := toString (p.line + 1)
  let gutter := String.ofList (List.replicate (number.length + 1) ' ')
  "TOML parse error at line " ++ number ++ ", column " ++ toString (p.column + 1) ++ "\n" ++
    gutter ++ "|\n" ++
    number ++ " | " ++ String.ofList p.content ++ "\n" ++
    gutter ++ "|" ++ String.ofList (List.replicate (p.column + 1) ' ') ++
    String.ofList (List.replicate (f.marks source) '^') ++ "\n" ++
    f.complaint.message ++ "\n"

end Fault

/-! ## Reading with complaints -/

/-- What a reader comes to: a value and the rest of the text, or a fault. -/
abbrev Reading (α : Type) := Except Fault (α × List Char)

namespace Reading

variable {α : Type}

/-- Names what was being read, unless an inner reader has done so. -/
def about (subject : String) : Reading α → Reading α
  | .ok x => .ok x
  | .error f =>
    .error { f with complaint.subject := f.complaint.subject.orElse fun _ => some subject }

/-- Adds what would have been right. -/
def hinting (expected : List String) : Reading α → Reading α
  | .ok x => .ok x
  | .error f => .error { f with complaint.expected := f.complaint.expected ++ expected }

/-- Rules out any other reading. -/
def decided : Reading α → Reading α
  | .ok x => .ok x
  | .error f => .error { f with final := true }

/-- Reads something else if the fault allows it. -/
def orElse (r : Reading α) (other : Unit → Reading α) : Reading α :=
  match r with
  | .error f => if f.final then r else other ()
  | .ok _ => r

/-- Takes a fault that is not final for nothing. -/
def optional (s : List Char) (r : Reading α) : Reading (Option α) :=
  match r with
  | .ok (a, rest) => .ok (some a, rest)
  | .error f => if f.final then .error f else .ok (none, s)

end Reading

end ApiCanon.Toml
