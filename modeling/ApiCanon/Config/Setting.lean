import ApiCanon.Config.Basic
import ApiCanon.Text.Literal
import ApiCanon.Toml.Document

/-!
# Settings

A setting is a value that knows where it comes from: the defaults, a file, or the environment.
Layers of settings are laid over each other: tables are merged key by key, and anything else
takes the place of what it covers.

The configuration is read off the merged settings.  The first setting that does not fit is
reported with its path and its origin.  Tables are gone through in the order of their keys.
-/

namespace ApiCanon

open Json (Value)

/-- Where a setting comes from. -/
inductive Origin where
  | defaults
  | file (path : String)
  | environment
  deriving DecidableEq, Repr, Inhabited

/-- A setting without parts. -/
inductive Scalar where
  | text (s : String)
  | flag (b : Bool)
  | signed (i : Int)
  | unsigned (n : Nat)
  | real (x : Toml.Real)
  deriving DecidableEq, Repr, Inhabited

/-- A value with its origin. -/
inductive Setting where
  | scalar (origin : Origin) (s : Scalar)
  | list (origin : Origin) (items : List Setting)
  | table (origin : Origin) (entries : List (String × Setting))
  deriving Inhabited

namespace Setting

def origin : Setting → Origin
  | scalar o _ => o
  | list o _ => o
  | table o _ => o

/-! ## Layers -/

/-- Puts a setting at its place among others sorted by key, by way of `cover` if the key is
there. -/
def putEntry (cover : Setting → Setting → Setting) (k : String) (s : Setting) :
    List (String × Setting) → List (String × Setting)
  | [] => [(k, s)]
  | (k', s') :: r =>
    if k < k' then (k, s) :: (k', s') :: r
    else if k = k' then (k, cover s' s) :: r
    else (k', s') :: putEntry cover k s r

mutual
/-- Lays a setting over another one. -/
def laidOver (lower : Setting) : Setting → Setting
  | table o entries =>
    match lower with
    | table _ below => table o (entriesOver below entries)
    | _ => table o entries
  | s => s

/-- Lays entries over others. -/
def entriesOver (below : List (String × Setting)) :
    List (String × Setting) → List (String × Setting)
  | [] => below
  | (k, s) :: r => entriesOver (coverAt k s below) r

/-- Lays an entry over others that are sorted by key. -/
def coverAt (k : String) (s : Setting) (below : List (String × Setting)) :
    List (String × Setting) :=
  match below.lookup k with
  | none => putEntry (fun _ s => s) k s below
  | some s' => putEntry (fun _ s => s) k (laidOver s' s) below
end

/-! ## Sources -/

mutual
/-- A value of a document. -/
def ofToml (o : Origin) : Toml.Value → Setting
  | .text s => scalar o (.text s)
  | .whole i => scalar o (.signed i)
  | .real x => scalar o (.real x)
  | .flag b => scalar o (.flag b)
  | .moment s => table o [("$__toml_private_datetime", scalar o (.text s))]
  | .list l => list o (itemsOfToml o l)
  | .table e => table o (entriesOfToml o e)

def itemsOfToml (o : Origin) : List Toml.Value → List Setting
  | [] => []
  | v :: r => ofToml o v :: itemsOfToml o r

def entriesOfToml (o : Origin) : List (String × Toml.Value) → List (String × Setting)
  | [] => []
  | (k, v) :: r => putEntry (fun _ s => s) k (ofToml o v) (entriesOfToml o r)
end

/-- The sections of a configuration as settings. -/
def ofConfig (o : Origin) (c : Config) : Setting :=
  let text (s : String) : Setting := scalar o (.text s)
  let nat (n : Nat) : Setting := scalar o (.unsigned n)
  let flag (b : Bool) : Setting := scalar o (.flag b)
  table o
    [("batch", table o
        [("failure_strategy", text c.batch.failureStrategy.text),
          ("item_timeout_secs", nat c.batch.itemTimeoutSeconds),
          ("max_concurrency", nat c.batch.maxConcurrency)]),
      ("cache", table o
        [("backend", text c.cache.backend.text),
          ("default_ttl_secs", nat c.cache.defaultTtlSeconds),
          ("path", text c.cache.path), ("sweep_interval_secs", nat c.cache.sweepSeconds)]),
      ("diff", table o
        [("ignore_descriptions", flag c.diff.ignoreDescriptions),
          ("include_schemas", flag c.diff.includeSchemas)]),
      ("parsers", table o [])]

/-! ## Faults -/

/-- Why a setting does not fit. -/
inductive Misfit where
  | wrongKind (found : String) (expected : String)
  | wrongValue (found : String) (expected : String)
  | unknownName (name : String) (known : List String)
  deriving Repr

/-- A choice among names. -/
def namesText : List String → String
  | [a] => s!"\x60{a}\x60"
  | [a, b] => s!"\x60{a}\x60 or \x60{b}\x60"
  | l => "one of " ++ ", ".intercalate (l.map fun a => s!"\x60{a}\x60")

def Misfit.message : Misfit → String
  | wrongKind found expected => s!"invalid type: found {found}, expected {expected}"
  | wrongValue found expected => s!"invalid value {found}, expected {expected}"
  | unknownName name known =>
    "unknown variant: found \x60" ++ name ++ "\x60, expected \x60" ++ namesText known ++ "\x60"

/-- A setting that does not fit, with its path and its origin. -/
structure Fault where
  misfit : Misfit
  path : List String
  origin : Origin
  deriving Repr

/-- How a setting is named in a message. -/
def shown : Setting → String
  | scalar _ (.text s) => "string " ++ Text.literal s
  | scalar _ (.flag b) => s!"bool {b}"
  | scalar _ (.signed i) => s!"signed int \x60{i}\x60"
  | scalar _ (.unsigned n) => s!"unsigned int \x60{n}\x60"
  | scalar _ (.real x) => s!"float \x60{x.text}\x60"
  | list _ _ => "sequence"
  | table _ _ => "map"

/-- The name of the place a setting comes from. -/
def Fault.source : Fault → String
  | ⟨_, _, .file path⟩ => path ++ " TOML file"
  | ⟨_, _, .environment⟩ => "\x60APIDOCGEN_\x60 environment variable(s)"
  | ⟨_, _, .defaults⟩ => "defaults"

/-- The path as its source writes it. -/
def Fault.key (f : Fault) : String :=
  match f.origin with
  | .environment => ".".intercalate (f.path.map Text.asciiUpper)
  | _ => ".".intercalate ("default" :: f.path)

def Fault.message (f : Fault) : String :=
  let key := if f.path.isEmpty then "" else " for key " ++ Text.literal f.key
  f.misfit.message ++ key ++ " in " ++ f.source

/-! ## Reading settings -/

/-- A reader of settings. -/
abbrev Read (α : Type) := Setting → Except Fault α

/-- The complaint about a setting of the wrong kind. -/
def wrongKind {α : Type} (expected : String) : Read α := fun s =>
  .error ⟨.wrongKind s.shown expected, [], s.origin⟩

/-- Goes one step down: a fault gets the step in front of its path. -/
def inside {α : Type} (k : String) (r : Except Fault α) : Except Fault α :=
  r.mapError fun f => { f with path := k :: f.path }

def readText (expected : String) : Read String
  | scalar _ (.text s) => .ok s
  | s => wrongKind expected s

def readFlag : Read Bool
  | scalar _ (.flag b) => .ok b
  | s => wrongKind "a boolean" s

/-- A whole number of 64 bits that is not negative. -/
def readNat (expected : String) : Read Nat
  | scalar o (.signed i) =>
    if 0 ≤ i then .ok i.toNat
    else .error ⟨.wrongValue (shown (scalar o (.signed i))) expected, [], o⟩
  | scalar _ (.unsigned n) => .ok n
  | s => wrongKind expected s

/-- The name of one of finitely many values; `expected` is what they are together.  A table
stands for the name of its first entry, which holds nothing. -/
def readName {α : Type} (expected : String) (known : List (String × α)) : Read α
  | scalar o (.text s) =>
    match known.lookup s with
    | some a => .ok a
    | none => .error ⟨.unknownName s (known.map (·.1)), [], o⟩
  | table o [] => wrongKind "enum" (table o [])
  | table o ((k, s) :: _) =>
    match known.lookup k with
    | some _ => inside k (wrongKind "unit" s)
    | none => .error ⟨.unknownName k (known.map (·.1)), [], o⟩
  | s => wrongKind expected s

/-- A part of a record: by its name in a table, by its number in a list.  A part that is not
there has a default. -/
def part {α : Type} (record : String) (index : Nat) (name : String) (read : Read α) (default : α) :
    Read α
  | table _ entries =>
    match entries.lookup name with
    | some s => inside name (read s)
    | none => .ok default
  | list _ items =>
    match items[index]? with
    | some s => inside (toString index) (read s)
    | none => .ok default
  | s => wrongKind record s

mutual
/-- The JSON value of a setting; a double that JSON has no text for becomes null. -/
def toJson : Setting → Value
  | scalar _ (.text s) => .string s
  | scalar _ (.flag b) => .bool b
  | scalar _ (.signed i) => .number (.int i)
  | scalar _ (.unsigned n) => .ofNat n
  | scalar _ (.real (.finite x)) => .number (.float x)
  | scalar _ (.real _) => .null
  | list _ l => .array (itemsToJson l)
  | table _ e => .object (entriesToJson e)

def itemsToJson : List Setting → List Value
  | [] => []
  | s :: r => s.toJson :: itemsToJson r

def entriesToJson : List (String × Setting) → List (String × Value)
  | [] => []
  | (k, s) :: r => (k, s.toJson) :: entriesToJson r
end

def readParsers : Read (SortedMap Value)
  | table _ entries => .ok (.ofList (entriesToJson entries))
  | s => wrongKind "a map" s

def readCache (s : Setting) : Except Fault CacheConfig := do
  let record := "struct CacheConfig"
  let d := CacheConfig.default
  let backend ←
    part record 0 "backend" (readName "enum CacheBackend" CacheBackend.known) d.backend s
  let ttl ← part record 2 "default_ttl_secs" (readNat "u64") d.defaultTtlSeconds s
  let path ← part record 1 "path" (readText "path string") d.path s
  let sweep ← part record 3 "sweep_interval_secs" (readNat "u64") d.sweepSeconds s
  pure ⟨backend, path, ttl, sweep⟩

def readBatch (s : Setting) : Except Fault BatchConfig := do
  let record := "struct BatchConfig"
  let d := BatchConfig.default
  let strategy ←
    part record 1 "failure_strategy" (readName "enum FailureStrategy" FailureStrategy.known)
      d.failureStrategy s
  let timeout ← part record 2 "item_timeout_secs" (readNat "u64") d.itemTimeoutSeconds s
  let concurrency ← part record 0 "max_concurrency" (readNat "usize") d.maxConcurrency s
  pure ⟨concurrency, strategy, timeout⟩

def readDiff (s : Setting) : Except Fault DiffOptions := do
  let record := "struct DiffConfig"
  let d := DiffOptions.default
  let ignore ← part record 0 "ignore_descriptions" readFlag d.ignoreDescriptions s
  let schemas ← part record 1 "include_schemas" readFlag d.includeSchemas s
  pure ⟨ignore, schemas⟩

/-- Reads the configuration off the settings. -/
def toConfig (s : Setting) : Except Fault Config := do
  let record := "struct Config"
  let d := Config.default
  let batch ← part record 1 "batch" readBatch d.batch s
  let cache ← part record 0 "cache" readCache d.cache s
  let diff ← part record 2 "diff" readDiff d.diff s
  let parsers ← part record 3 "parsers" readParsers d.parsers s
  pure ⟨cache, batch, diff, parsers⟩

end Setting

end ApiCanon
