import ApiCanon.Toml.Scalar

/-!
# TOML documents

A document is a sequence of lines: comments, headers of tables, and keys with values.  A header
opens a table for the keys that follow it; a header in double brackets opens a further table in a
list of tables.

## Which table a key belongs to

A path of keys leads down from a table.  The tables on the way are made if they are not there,
and how they came to be decides who may add to them later: a table with a header of its own is
closed to dotted keys, one that is only known from the headers of its parts may still get its own
header, and one that dotted keys made may only be extended by dotted keys.
-/

namespace ApiCanon.Toml

/-! ## Tables under construction -/

/-- How a table came to be. -/
inductive TableForm where
  /-- It has a header, or braces, or is the document. -/
  | opened
  /-- It lies on the way to a table with a header. -/
  | supposed
  /-- It lies on the way of a dotted key. -/
  | dotted
  deriving DecidableEq, Repr, Inhabited

/-- A part of a document under construction. -/
inductive Node where
  | value (v : Value)
  | table (form : TableForm) (entries : List (String × Node))
  /-- A list of tables, the last one first. -/
  | tables (elements : List Node)
  deriving Inhabited

abbrev Entries := List (String × Node)

/-- Gives a key a node: in its place if the key is there, else at the end. -/
def Entries.put (k : String) (n : Node) : Entries → Entries
  | [] => [(k, n)]
  | (k', n') :: r => if k' = k then (k, n) :: r else (k', n') :: put k n r

/-- What leads down a path. -/
inductive Way where
  /-- A header. -/
  | byHeader
  /-- A dotted key of a table with a header. -/
  | byKey
  /-- A dotted key within braces. -/
  | inBraces
  deriving DecidableEq, Repr

/-- The form of the tables that are made on the way. -/
def Way.form : Way → TableForm
  | byHeader => .supposed
  | _ => .dotted

/-- What happens to the table at the end of a path. -/
abbrev TableStep := TableForm → Entries → Except Breach Node

/-- Goes down a path and changes the table at its end.  `gone` is the path so far. -/
def descend (way : Way) (step : TableStep) :
    List String → List String → TableForm → Entries → Except Breach Node
  | [], _, form, entries => step form entries
  | k :: path, gone, form, entries =>
    let keep (n : Node) : Node := .table form (Entries.put k n entries)
    match entries.lookup k with
    | none => (descend way step path (gone ++ [k]) way.form []).map keep
    | some (.table inner below) =>
      if way ≠ .byHeader ∧ inner = .opened then .error (.duplicate k none)
      else (descend way step path (gone ++ [k]) inner below).map keep
    | some (.tables (.table inner below :: earlier)) =>
      (descend way step path (gone ++ [k]) inner below).map fun n => keep (.tables (n :: earlier))
    | some (.tables _) => .error (.duplicate k none)
    | some (.value (.table t)) =>
      if way = .inBraces then .error (.duplicate k none)
      else .error (.passing (gone ++ [k]) (Value.table t).kind)
    | some (.value v) => .error (.passing (gone ++ [k]) v.kind)

/-- Adds a key to the table at the end of a dotted path.  `table` is the path of the table for
the complaint about a key that is there. -/
def addKey (dotted : Bool) (table : Option (List String)) (key : String) (v : Value) : TableStep :=
  fun form entries =>
    if dotted ∧ form ≠ .dotted then .error (.duplicate key none)
    else if (entries.lookup key).isSome then .error (.duplicate key table)
    else .ok (.table form (entries ++ [(key, .value v)]))

/-- Opens the table of a header in its parent. -/
def openTable (path : List String) (key : String) : TableStep := fun form entries =>
  match entries.lookup key with
  | none => .ok (.table form (Entries.put key (.table .opened []) entries))
  | some (.table .supposed below) =>
    .ok (.table form (Entries.put key (.table .opened below) entries))
  | some _ => .error (.duplicate key (some path))

/-- Opens a further table of a list in its parent. -/
def openElement (path : List String) (key : String) : TableStep := fun form entries =>
  let element : Node := .table .opened []
  match entries.lookup key with
  | none => .ok (.table form (Entries.put key (.tables [element]) entries))
  | some (.tables earlier) =>
    .ok (.table form (Entries.put key (.tables (element :: earlier)) entries))
  | some _ => .error (.duplicate key (some path))

mutual
/-- The value that a finished node stands for. -/
def Node.toValue : Node → Value
  | .value v => v
  | .table _ entries => .table (entriesToValues entries)
  | .tables elements => .list (elementsToValues elements).reverse

def entriesToValues : List (String × Node) → List (String × Value)
  | [] => []
  | (k, n) :: r => (k, n.toValue) :: entriesToValues r

def elementsToValues : List Node → List Value
  | [] => []
  | n :: r => n.toValue :: elementsToValues r
end

/-! ## Keys -/

/-- What a key without quotes is made of. -/
def inBareKey (c : Char) : Bool := c.isAlphanum || c == '_' || c == '-'

/-- One part of a key, blanks around it skipped. -/
def keyPart (s : List Char) : Reading String :=
  let s := skipBlanks s
  match s with
  | [] => .error (.before [] .nothing)
  | c :: _ =>
    let part : Reading String :=
      if c == '"' || c == '\'' then shortText s
      else if inBareKey c then
        .ok (String.ofList (s.takeWhile inBareKey), s.dropWhile inBareKey)
      else .error (.before s .nothing)
    part.map fun (k, rest) => (k, skipBlanks rest)

/-- The parts of a key behind the first one.  A point that no part follows stays. -/
def keyParts : Nat → List Char → Reading (List String)
  | 0, s => .ok ([], s)
  | fuel + 1, s =>
    match s with
    | '.' :: r =>
      match keyPart r with
      | .ok (k, rest) => (keyParts fuel rest).map fun (ks, rest) => (k :: ks, rest)
      | .error f => if f.final then .error f else .ok ([], s)
    | s => .ok ([], s)

/-- The greatest depth of a value or of a key. -/
def depthLimit : Nat := 80

/-- A key: its first part and the others. -/
def keyPath (s : List Char) : Except Fault ((String × List String) × List Char) := do
  let ((k, ks), rest) ← Reading.about "key" <|
    match keyPart s with
    | .error f => .error f
    | .ok (k, rest) => (keyParts rest.length rest).map fun (ks, rest) => ((k, ks), rest)
  if depthLimit ≤ ks.length + 1 then .error (.breaking s .tooDeep) else .ok ((k, ks), rest)

/-- The path to the last part of a key, and that part. -/
def splitLast (k : String) : List String → List String × String
  | [] => ([], k)
  | l :: ks => let (path, last) := splitLast l ks; (k :: path, last)

/-- The sign between a key and its value. -/
def equalsSign : List Char → Reading Unit
  | '=' :: r => .ok ((), r)
  | s => .error (.expecting s ["\x60.\x60", "\x60=\x60"])

/-! ## Values -/

/-- A key within braces, with its value. -/
structure Assignment where
  path : List String
  key : String
  value : Value

/-- Makes a table of what stands within braces. -/
def tableOf (l : List Assignment) : Except Breach Node :=
  l.foldlM (fun n a =>
    match n with
    | .table form entries =>
      descend .inBraces (addKey (!a.path.isEmpty) none a.key a.value) a.path [] form entries
    | n => .ok n) (.table .opened [])

mutual
/-- A value.  `depth` counts the brackets and braces around it. -/
def value (depth : Nat) : Nat → List Char → Reading Value
  | 0, s => .error (.before s .nothing)
  | fuel + 1, s =>
    match s with
    | '[' :: r =>
      if depthLimit ≤ depth + 1 then .error (.breaking s .tooDeep)
      else
        match listItems (depth + 1) fuel r with
        | .error f => .error { f with final := true }
        | .ok (items, rest) =>
          match skipLines rest.length (afterComma items.isEmpty rest) with
          | ']' :: rest => .ok (.list items, rest)
          | rest => Reading.about "array" (.error (.expecting rest ["\x60]\x60"]))
    | '\x7b' :: r =>
      if depthLimit ≤ depth + 1 then .error (.breaking s .tooDeep)
      else
        match assignments (depth + 1) fuel r with
        | .error f => .error { f with final := true }
        | .ok (l, rest) =>
          match tableOf l with
          | .error b => .error { Fault.breaking r b with final := true }
          | .ok n =>
            match skipBlanks rest with
            | '\x7d' :: rest => .ok (n.toValue, rest)
            | rest => Reading.about "inline table" (.error (.expecting rest ["\x60\x7d\x60"]))
    | s => scalar s

/-- The items of a list up to the first place where no further item stands. -/
def listItems (depth : Nat) : Nat → List Char → Reading (List Value)
  | 0, s => .ok ([], s)
  | fuel + 1, s =>
    match value depth fuel (skipLines s.length s) with
    | .error f => if f.final then .error f else .ok ([], s)
    | .ok (v, rest) =>
      let rest := skipLines rest.length rest
      match rest with
      | ',' :: r =>
        match listItems depth fuel r with
        | .error f => .error f
        | .ok ([], _) => .ok ([v], rest)
        | .ok (vs, rest) => .ok (v :: vs, rest)
      | rest => .ok ([v], rest)

/-- What stands within braces up to the first place where no further key stands. -/
def assignments (depth : Nat) : Nat → List Char → Reading (List Assignment)
  | 0, s => .ok ([], s)
  | fuel + 1, s =>
    match assignment depth fuel s with
    | .error f => if f.final then .error f else .ok ([], s)
    | .ok (a, rest) =>
      match rest with
      | ',' :: r =>
        match assignments depth fuel r with
        | .error f => .error f
        | .ok ([], _) => .ok ([a], rest)
        | .ok (l, rest) => .ok (a :: l, rest)
      | rest => .ok ([a], rest)

/-- A key and its value, blanks around both skipped. -/
def assignment (depth : Nat) : Nat → List Char → Reading Assignment
  | 0, s => .error (.before s .nothing)
  | fuel + 1, s =>
    match keyPath s with
    | .error f => .error f
    | .ok ((k, ks), rest) =>
      match equalsSign rest with
      | .error f => .error f
      | .ok ((), rest) =>
        match (value depth fuel (skipBlanks rest)).decided with
        | .error f => .error f
        | .ok (v, rest) =>
          let (path, key) := splitLast k ks
          .ok (⟨path, key, v⟩, skipBlanks rest)

/-- A list may end with a comma, if it has an item. -/
def afterComma (empty : Bool) : List Char → List Char
  | ',' :: r => if empty then ',' :: r else r
  | s => s
end

/-! ## Lines -/

/-- The document so far, and the path of the table that is open. -/
structure Draft where
  root : Node
  header : List String
  deriving Inhabited

namespace Draft

def empty : Draft := ⟨.table .opened [], []⟩

/-- Changes a table below the root. -/
def update (d : Draft) (way : Way) (path : List String) (step : TableStep) : Except Breach Node :=
  match d.root with
  | .table form entries => descend way step path [] form entries
  | n => .ok n

/-- Adds a key to the open table. -/
def put (d : Draft) (path : List String) (key : String) (v : Value) : Except Breach Draft :=
  let step := descend .byKey (addKey (!path.isEmpty) (some d.header) key v) path []
  (d.update .byHeader d.header step).map fun root => { d with root := root }

/-- Opens a table, or a further table of a list. -/
def enter (d : Draft) (element : Bool) (path : List String) (key : String) : Except Breach Draft :=
  let step := if element then openElement path key else openTable path key
  (d.update .byHeader path step).map fun root => ⟨root, path ++ [key]⟩

end Draft

/-- Turns a broken rule into a fault in front of a line. -/
def onLine {α : Type} (line rest : List Char) : Except Breach α → Reading α
  | .ok a => .ok (a, rest)
  | .error b => .error { Fault.breaking line b with final := true }

/-- A key with its value up to the end of the line. -/
def keyLine (d : Draft) (s : List Char) : Except Fault (Draft × List Char) := do
  let ((k, ks), rest) ← keyPath s
  let ((), rest) ← equalsSign rest
  let rest := skipBlanks rest
  let (v, rest) ← value 0 (2 * rest.length + 2) rest
  let ((), rest) ← lineEnd rest
  let (path, key) := splitLast k ks
  onLine s rest (d.put path key v)

/-- What closes a header. -/
def headerEnd (element : Bool) (s : List Char) : Reading Unit :=
  match element, s with
  | false, ']' :: r => .ok ((), r)
  | true, ']' :: ']' :: r => .ok ((), r)
  | false, s => .error (.expecting s ["\x60.\x60", "\x60]\x60"])
  | true, s => .error (.expecting s ["\x60.\x60", "\x60]]\x60"])

/-- A header behind its opening brackets. -/
def headerRest (d : Draft) (element : Bool) (line s : List Char) :
    Except Fault (Draft × List Char) := do
  let ((k, ks), rest) ← keyPath s
  let ((), rest) ← headerEnd element rest
  let ((), rest) ← lineEnd rest
  let (path, key) := splitLast k ks
  onLine line rest (d.enter element path key)

/-- The header of a table. -/
def headerLine (d : Draft) (s : List Char) : Reading Draft :=
  Reading.about "table header" <|
    match s with
    | '[' :: '[' :: r => headerRest d true s r
    | '[' :: c :: r => headerRest d false s (c :: r)
    | s => .error (.before s .nothing)

/-- A comment up to the end of its line. -/
def commentLine (s : List Char) : Reading Unit :=
  let rest := skipComment s
  match rest, lineBreak? rest with
  | [], _ => .ok ((), [])
  | _, some r => .ok ((), r)
  | _, none => .error (.before rest .nothing)

/-- The lines of a document. -/
def documentLines : Nat → Draft → List Char → Except Fault Draft
  | 0, d, _ => .ok d
  | fuel + 1, d, s =>
    let s := skipBlanks s
    match s with
    | [] => .ok d
    | '#' :: _ =>
      match commentLine s with
      | .ok ((), rest) => documentLines fuel d rest
      | .error f => .error f
    | '[' :: _ =>
      match headerLine d s with
      | .ok (d, rest) => documentLines fuel d rest
      | .error f => .error f
    | c :: _ =>
      if c == '\n' || c == '\r' then
        match lineBreak? s with
        | some rest => documentLines fuel d rest
        | none => .error (.before s .nothing)
      else
        match keyLine d s with
        | .ok (d, rest) => documentLines fuel d rest
        | .error f => .error f

/-- Reads a document into the entries of its root.  A byte order mark in front is skipped. -/
def read (source : List Char) : Except Fault (List (String × Value)) :=
  let s := match source with
    | c :: r => if c.toNat = 0xFEFF then r else source
    | [] => []
  (documentLines (s.length + 1) .empty s).map fun d =>
    match d.root.toValue with
    | .table entries => entries
    | _ => []

end ApiCanon.Toml
