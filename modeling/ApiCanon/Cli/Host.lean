import ApiCanon.Cache.Store
import ApiCanon.Text.Search

/-!
# The host of a command

What a command needs of the system it runs on: variables, a clock, files, the tables in which the
cache keeps its rows, and two streams for its output.  Commands are written against this
interface.  `Workspace` is a host that is a value.

## Paths

A path is absolute or relative to the working directory.  The place it denotes is the list of its
parts, in which `.` does not count and `..` takes back the part before it.
-/

namespace ApiCanon

/-- What is at a place. -/
inductive PlaceKind where
  | file
  | directory
  deriving DecidableEq, Repr

/-- What a command needs of the system it runs on. -/
class Host (m : Type → Type) where
  /-- The variables of the environment. -/
  «variables» : m (List (String × String))
  now : m Timestamp
  /-- The path of the working directory. -/
  directory : m String
  kind? : String → m (Option PlaceKind)
  /-- The contents of a file, unless it cannot be read. -/
  contents? : String → m (Option Bytes)
  /-- Writes a file and makes the directories on the way to it; why that failed, if it did. -/
  save : String → Bytes → m (Except String Unit)
  /-- Opens the table of the cache in a file, made if it is not there. -/
  openTable : String → m (Except StoreError (SortedMap CacheRow))
  /-- Keeps the table of the cache in its file. -/
  keepTable : String → SortedMap CacheRow → m Unit
  /-- Writes to the output. -/
  say : String → m Unit
  /-- Writes to the stream for messages. -/
  complain : String → m Unit

/-! ## Paths -/

namespace Path

/-- A path below another one. -/
def join (base path : String) : String :=
  if base.isEmpty || base.endsWith "/" then base ++ path else base ++ "/" ++ path

/-- The parts of a path as written, without empty ones and `.`. -/
def writtenParts (path : String) : List String :=
  ((Text.splitAll (· == '/') path.toList).map String.ofList).filter fun p => p != "" && p != "."

/-- Adds a part to a place, the last part first. -/
def step (place : List String) (part : String) : List String :=
  if part == ".." then place.drop 1 else part :: place

/-- The place of a path: its parts from the root of all places on. -/
def place (directory path : String) : List String :=
  let absolute := path.startsWith "/" || path == directory || path.startsWith (directory ++ "/")
  let parts := if absolute then writtenParts path else writtenParts directory ++ writtenParts path
  (parts.foldl step []).reverse

/-- The path as messages show it: relative if it leads below the working directory. -/
def shown (directory path : String) : String :=
  if path.startsWith (directory ++ "/") then
    "/".intercalate (writtenParts (String.ofList (path.toList.drop (directory.length + 1))))
  else if path.startsWith "/" then path
  else "/".intercalate (writtenParts path)

end Path

/-! ## A host that is a value -/

/-- The files, variables and tables that commands work on, and what they have written. -/
structure Workspace where
  directory : String
  «variables» : List (String × String)
  clock : Timestamp
  /-- The files by place. -/
  files : List (List String × Bytes)
  /-- The tables of the cache by place. -/
  tables : List (List String × SortedMap CacheRow)
  output : String
  messages : String
  deriving Inhabited

namespace Workspace

/-- Puts a value at a place, over the one that is there. -/
def putAt {α : Type} (p : List String) (a : α) (l : List (List String × α)) :
    List (List String × α) :=
  (p, a) :: l.filter fun q => q.1 != p

/-- Whether a place is the working directory or has something below it. -/
def isDirectory (w : Workspace) (p : List String) : Bool :=
  let above (q : List String) : Bool := p.length < q.length && p.isPrefixOf q
  p.isPrefixOf (Path.place w.directory w.directory) || w.files.any (fun f => above f.1) ||
    w.tables.any fun t => above t.1

def kindAt (w : Workspace) (p : List String) : Option PlaceKind :=
  if (w.files.lookup p).isSome || (w.tables.lookup p).isSome then some .file
  else if w.isDirectory p then some .directory
  else none

/-- Why the directories on the way to a place cannot be made, if they cannot: one of them is a
file, the last one or one before it. -/
def blocked? (w : Workspace) (p : List String) : Option String :=
  let parent := p.dropLast
  if w.kindAt parent == some .file then some "File exists (os error 17)"
  else if (List.range parent.length).any fun n => w.kindAt (parent.take n) == some .file then
    some "Not a directory (os error 20)"
  else none

/-- Writes a file. -/
def write (w : Workspace) (path : String) (b : Bytes) : Except String Workspace :=
  let p := Path.place w.directory path
  match w.blocked? p with
  | some reason => .error reason
  | none =>
    match w.kindAt p, path.endsWith "/" with
    | some .directory, _ => .error "Is a directory (os error 21)"
    | some .file, true => .error "Not a directory (os error 20)"
    | none, true => .error "Is a directory (os error 21)"
    | _, false => .ok { w with files := putAt p b w.files }

/-- The table in a file, made if it is not there. -/
def tableAt (w : Workspace) (path : String) : Except StoreError (SortedMap CacheRow) :=
  let p := Path.place w.directory path
  let refused (reason : String) : StoreError :=
    .connection ("Failed to create connection pool: timed out waiting for connection: " ++ reason)
  match w.blocked? p with
  | some reason => .error (.backend ("Failed to create cache directory: " ++ reason))
  | none =>
    match w.tables.lookup p, w.files.lookup p with
    | some t, _ => .ok t
    | none, some [] => .ok .empty
    | none, some _ => .error (refused "file is not a database")
    | none, none =>
      if w.isDirectory p then .error (refused ("unable to open database file: " ++ path))
      else .ok .empty

instance : Host (StateM Workspace) where
  «variables» := do return (← get).variables
  now := do return (← get).clock
  directory := do return (← get).directory
  kind? path := do
    let w ← get
    return w.kindAt (Path.place w.directory path)
  contents? path := do
    let w ← get
    return if path.endsWith "/" then none else w.files.lookup (Path.place w.directory path)
  save path b := do
    match (← get).write path b with
    | .ok w => set w; return .ok ()
    | .error reason => return .error reason
  openTable path := do return (← get).tableAt path
  keepTable path t := modify fun w =>
    { w with tables := putAt (Path.place w.directory path) t w.tables }
  say s := modify fun w => { w with output := w.output ++ s }
  complain s := modify fun w => { w with messages := w.messages ++ s }

end Workspace

end ApiCanon
