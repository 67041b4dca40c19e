import ApiCanon.Batch.Basic
import ApiCanon.Collection.SortedMap
import ApiCanon.Diff.Difference
import ApiCanon.Text.Case
import ApiCanon.Toml.Printer

/-!
# Configuration

The settings of the program: where the cache is kept and for how long, how batches are run, how
descriptions are compared, and a configuration for each reader by its tag.

A span of 0 seconds stands for no limit.  A configuration is valid if at least one item may be
under way at a time, the cache is swept at intervals longer than 0, and every configuration of a
reader is an object.
-/

namespace ApiCanon

open Json (Value Decoder)

/-- Where the cache keeps its entries. -/
inductive CacheBackend where
  | memory
  | sqlite
  | tiered
  deriving DecidableEq, Repr, Inhabited

namespace CacheBackend

def text : CacheBackend → String
  | memory => "memory"
  | sqlite => "sqlite"
  | tiered => "tiered"

def known : List (String × CacheBackend) :=
  [("memory", memory), ("sqlite", sqlite), ("tiered", tiered)]

/-- Reads a name in any case. -/
def ofText? (s : String) : Option CacheBackend := known.lookup (Text.lower s)

/-- The complaint about a text that is no such name. -/
def unknownMessage (s : String) : String :=
  s!"Unknown cache backend: {s}. Valid values: memory, sqlite, tiered"

end CacheBackend

/-- Where the cache is kept and for how long. -/
structure CacheConfig where
  backend : CacheBackend
  /-- The file of the data base. -/
  path : String
  defaultTtlSeconds : Nat
  sweepSeconds : Nat
  deriving DecidableEq, Repr, Inhabited

/-- How batches are run. -/
structure BatchConfig where
  maxConcurrency : Nat
  failureStrategy : FailureStrategy
  itemTimeoutSeconds : Nat
  deriving DecidableEq, Repr, Inhabited

/-- The settings of the program. -/
structure Config where
  cache : CacheConfig
  batch : BatchConfig
  diff : DiffOptions
  /-- The configuration of each reader by its tag. -/
  parsers : SortedMap Value
  deriving Inhabited

/-- A span of seconds, unless it is 0. -/
def secondsOrNone (n : Nat) : Option Span := if n = 0 then none else some (.ofSeconds n)

namespace CacheConfig

/-- The directory for the files of a project. -/
def projectDirectory : String := ".apidocgen"

def default : CacheConfig := ⟨.tiered, projectDirectory ++ "/cache.db", 7 * 24 * 60 * 60, 300⟩

def defaultTtl (c : CacheConfig) : Option Span := secondsOrNone c.defaultTtlSeconds

def toJson (c : CacheConfig) : Value :=
  .object [("backend", .string c.backend.text), ("path", .string c.path),
    ("default_ttl_secs", .ofNat c.defaultTtlSeconds),
    ("sweep_interval_secs", .ofNat c.sweepSeconds)]

/-- The path of a file. -/
def pathText : Decoder String
  | .string s => .ok s
  | v => .error (.wrongKind v "path string")

def decode : Decoder CacheConfig :=
  .record "struct CacheConfig" 4 fun s =>
    CacheConfig.mk <$> s.withDefault 0 "backend" (.variant CacheBackend.known) default.backend
      <*> s.withDefault 1 "path" pathText default.path
      <*> s.withDefault 2 "default_ttl_secs" .u64 default.defaultTtlSeconds
      <*> s.withDefault 3 "sweep_interval_secs" .u64 default.sweepSeconds

end CacheConfig

namespace BatchConfig

def default : BatchConfig := ⟨defaultConcurrency, .carryOn, 120⟩

def options (b : BatchConfig) : BatchOptions :=
  ⟨b.maxConcurrency, b.failureStrategy, secondsOrNone b.itemTimeoutSeconds⟩

def toJson (b : BatchConfig) : Value :=
  .object [("max_concurrency", .ofNat b.maxConcurrency),
    ("failure_strategy", .string b.failureStrategy.text),
    ("item_timeout_secs", .ofNat b.itemTimeoutSeconds)]

def decode : Decoder BatchConfig :=
  .record "struct BatchConfig" 3 fun s =>
    BatchConfig.mk <$> s.withDefault 0 "max_concurrency" .size default.maxConcurrency
      <*> s.withDefault 1 "failure_strategy" FailureStrategy.decode default.failureStrategy
      <*> s.withDefault 2 "item_timeout_secs" .u64 default.itemTimeoutSeconds

end BatchConfig

namespace DiffOptions

def toJson (d : DiffOptions) : Value :=
  .object [("ignore_descriptions", .bool d.ignoreDescriptions),
    ("include_schemas", .bool d.includeSchemas)]

/-- The options as a section of the configuration. -/
def decodeSection : Decoder DiffOptions :=
  .record "struct DiffConfig" 2 fun s =>
    DiffOptions.mk <$> s.withDefault 0 "ignore_descriptions" .bool default.ignoreDescriptions
      <*> s.withDefault 1 "include_schemas" .bool default.includeSchemas

end DiffOptions

namespace Config

def default : Config := ⟨.default, .default, .default, .empty⟩

/-- The configuration of the reader of a tag. -/
def parserConfig? (c : Config) (tag : String) : Option Value := c.parsers.get? tag

def toJson (c : Config) : Value :=
  .object [("cache", c.cache.toJson), ("batch", c.batch.toJson), ("diff", c.diff.toJson),
    ("parsers", .object c.parsers.entries)]

def decode : Decoder Config :=
  .record "struct Config" 4 fun s =>
    Config.mk <$> s.withDefault 0 "cache" CacheConfig.decode .default
      <*> s.withDefault 1 "batch" BatchConfig.decode .default
      <*> s.withDefault 2 "diff" DiffOptions.decodeSection .default
      <*> s.withDefault 3 "parsers" (fun v => (Decoder.entries .any v).map SortedMap.ofList) .empty

/-! ## Validity -/

/-- What makes a configuration invalid. -/
inductive Flaw where
  | noConcurrency
  | noSweepInterval
  | parserNotObject (tag : String)
  deriving DecidableEq, Repr

def Flaw.message : Flaw → String
  | noConcurrency => "batch.max_concurrency must be greater than 0"
  | noSweepInterval => "cache.sweep_interval_secs must be greater than 0"
  | parserNotObject tag => s!"parsers.{tag} must be a table"

/-- The first flaw of a configuration. -/
def flaw? (c : Config) : Option Flaw :=
  if c.batch.maxConcurrency = 0 then some .noConcurrency
  else if c.cache.sweepSeconds = 0 then some .noSweepInterval
  else (c.parsers.entries.find? fun p => !Toml.isObject p.2).map fun p => .parserNotObject p.1

/-- A configuration that has passed the check. -/
def checked (c : Config) : Except AppError Config :=
  match c.flaw? with
  | some f => .error (.config f.message)
  | none => .ok c

/-! ## Writing -/

/-- The configuration as a TOML document. -/
def render (c : Config) : Except AppError String :=
  match Toml.render? c.toJson with
  | some text => .ok text
  | none => .error (.config "unsupported unit type")

end Config

end ApiCanon
