import ApiCanon.Cli.Arguments
import ApiCanon.Cli.Host
import ApiCanon.Config.Environment
import ApiCanon.Diff.Report
import ApiCanon.Pipeline.Basic

/-!
# The program

What each command does.  A command ends with a status: 0 if all went well, 1 if it failed or a
source could not be read, and 2 if a comparison was to fail on changes that break clients and
found some.

The settings come from the defaults, the file of the user, the file of the project and the
environment; a file named on the command line stands in for both files.  Listing the readers and
the paths of the files needs no settings.
-/

namespace ApiCanon

open Json (Value)

/-- How a run ends. -/
inductive Conclusion where
  /-- The arguments did not fit. -/
  | misused
  | done (status : Nat)
  deriving DecidableEq, Repr, Inhabited

/-! ## Texts -/

/-- The reason inside a failure that is reported behind it. -/
def AppError.reason? : AppError → Option String
  | io r => some r
  | json e => some e.message
  | cache e => some e.message
  | service e => some e.text
  | diff e => some e.message
  | _ => none

/-- A failure followed by its reason. -/
def AppError.report (e : AppError) : String :=
  "\x1b[31mError:\x1b[0m " ++ e.message ++
    (match e.reason? with
      | some r => ": " ++ r
      | none => "") ++ "\n"

/-- A text with blanks up to a width. -/
def padRight (width : Nat) (s : String) : String :=
  s ++ String.ofList (List.replicate (width - s.length) ' ')

/-- A line of the table of readers. -/
def readerLine (tag name schemas extensions : String) : String :=
  padRight 10 tag ++ " " ++ padRight 28 name ++ " " ++ padRight 8 schemas ++ " " ++ extensions ++
    "\n"

/-- The table of readers. -/
def Registry.table (r : Registry) : String :=
  Text.trimmedRight <|
    readerLine "Type" "Parser" "Schemas" "Extensions" ++
      String.join (r.readers.entries.map fun (tag, k) =>
        readerLine tag k.capabilities.name
          (if k.capabilities.extractsSchemas then "yes" else "no")
          (", ".intercalate k.capabilities.extensions))

/-- The readers as a document. -/
def Registry.toJson (r : Registry) : Value :=
  .object (r.readers.entries.map fun (tag, k) =>
    (tag, .object [("name", .string k.capabilities.name),
      ("extensions", .array (k.capabilities.extensions.map .string)),
      ("extracts_schemas", .bool k.capabilities.extractsSchemas)]))

def versionText : String := "apidocgen 0.1.0\n"

def helpText : String :=
  "Normalize API descriptions into a canonical AST and diff versions\n\n" ++
    "Usage: apidocgen [OPTIONS] <COMMAND>\n\n" ++
    "Commands:\n" ++
    "  parse    Parse sources into the canonical AST (JSON)\n" ++
    "  diff     Compare two versions of an API\n" ++
    "  parsers  List registered source types and parser capabilities\n" ++
    "  cache    Manage the result cache\n" ++
    "  config   Manage configuration\n"

namespace Program

variable {m : Type → Type} [Monad m] [Host m]

/-- An action that may fail. -/
abbrev Action (m : Type → Type) (α : Type) := ExceptT AppError m α

/-! ## Settings -/

/-- The file of settings of the user. -/
def userConfig? (vars : List (String × String)) : Option String :=
  let base := (vars.lookup "XDG_CONFIG_HOME").orElse fun _ =>
    (vars.lookup "HOME").map fun home => Path.join home ".config"
  base.map fun b => Path.join (Path.join b "apidocgen") "config.toml"

/-- The file of settings of the project. -/
def projectConfig : String := Path.join CacheConfig.projectDirectory "config.toml"

/-- The file of settings at a path, if there is one. -/
def configFile? (path : String) : m (Option ConfigFile) := do
  match ← Host.kind? path with
  | some .file =>
    let directory ← Host.directory
    let text := ((← Host.contents? path).bind Bytes.toString?).getD ""
    return some ⟨Path.shown directory path, text⟩
  | _ => return none

/-- The settings in force. -/
def settings (config : Option String) : Action m Config := do
  let vars ← (Host.variables : m _)
  match config with
  | some path =>
    match ← (Host.kind? path : m _) with
    | none => throw (Config.notFound path)
    | some _ => liftExcept (Config.load (← (configFile? path : m _)).toList vars)
  | none =>
    let user ← match userConfig? vars with
      | some path => (configFile? path : m _)
      | none => pure none
    let project ← (configFile? projectConfig : m _)
    liftExcept (Config.load (user.toList ++ project.toList) vars)
where
  liftExcept (r : Except AppError Config) : Action m Config := ExceptT.mk (pure r)

/-! ## The cache -/

/-- Opens the cache of a configuration. -/
def openCache (c : CacheConfig) : Action m Cache := do
  let table : Action m Store := do
    match ← (Host.openTable c.path : m _) with
    | .ok rows => pure (.table rows)
    | .error e => throw (.cache e)
  let store ← match c.backend with
    | .memory => pure (.memory .empty)
    | .sqlite => table
    | .tiered => do pure (.tiered (.memory .empty) (← table))
  pure (.over store c.defaultTtl)

/-- The rows of the table of a store. -/
def rows? : Store → Option (SortedMap CacheRow)
  | .table rows => some rows
  | .tiered _ (.table rows) => some rows
  | _ => none

/-- Keeps what a cache holds in a table. -/
def keepCache (c : CacheConfig) (cache : Cache) : m Unit :=
  match rows? cache.store with
  | some rows => Host.keepTable c.path rows
  | none => pure ()

/-! ## Output -/

/-- Writes a text to a file, or without blanks at its end to the output. -/
def emit (text : String) (output : Option String) : Action m Unit := do
  match output with
  | some path =>
    match ← (Host.save path (Bytes.ofString text) : m _) with
    | .ok () => (Host.complain ("✓ Wrote " ++ path ++ "\n") : m _)
    | .error reason => throw (.io reason)
  | none => (Host.say (Text.trimmedRight text ++ "\n") : m _)

def jsonText (v : Value) (compact : Bool) : String := if compact then v.compact else v.pretty

/-! ## Commands -/

/-- The request for a file, with the configuration of its reader. -/
def request (c : Config) (tag : String) (given : Option Value) (path : String) : m ReadRequest := do
  let content ← Host.contents? path
  return ⟨tag, .file path content, given.orElse fun _ => c.parserConfig? tag⟩

/-- The configuration given as an argument. -/
def givenConfig (argument : Option String) : Action m (Option Value) :=
  match argument with
  | none => pure none
  | some text => ExceptT.mk (pure ((readConfigArgument text).map some))

/-- Reads sources and writes the results. -/
def parse (c : Config) (a : ParseArguments) : Action m Nat := do
  let given ← givenConfig a.parserConfig
  let cache ← openCache c.cache
  let requests ← (a.files.mapM (request c a.tag given) : m _)
  let (results, p) := (Pipeline.start cache none).readMany (← (Host.now : m _)) requests
  (keepCache c.cache p.cache : m _)
  let failed := results.filter fun r => !r.succeeded
  for r in failed do
    for e in r.errors do
      (Host.complain ("✗ " ++ r.origin.getD "<inline>" ++ ": " ++ e.message ++ "\n") : m _)
  let document := match results with
    | [r] => r.toJson
    | _ => .array (results.map ReadResult.toJson)
  emit (jsonText document a.compact) a.output
  pure (if failed.isEmpty then 0 else 1)

/-- The description in a result, if it has no errors. -/
def description (r : ReadResult) (path : String) : Except AppError Ast :=
  match r.ast, r.errors with
  | some ast, [] => .ok ast
  | _, errors =>
    .error (.parse r.sourceType (path ++ ": " ++ "; ".intercalate (errors.map (·.message))))

/-- Compares two versions and writes the report. -/
def compare (c : Config) (a : DiffArguments) : Action m Nat := do
  let given ← givenConfig a.parserConfig
  let cache ← openCache c.cache
  let now ← (Host.now : m _)
  let old ← (request c a.tag given a.old : m _)
  let (old, p) := (Pipeline.start cache none).read now old
  (keepCache c.cache p.cache : m _)
  let old ← ExceptT.mk (pure (description old a.old))
  let new ← (request c (a.newTag.getD a.tag) given a.new : m _)
  let (new, p) := p.read now new
  (keepCache c.cache p.cache : m _)
  let new ← ExceptT.mk (pure (description new a.new))
  let options : DiffOptions :=
    ⟨c.diff.ignoreDescriptions || a.ignoreDescriptions, c.diff.includeSchemas && !a.noSchemas⟩
  match diff options old new with
  | .error e => throw (.diff e)
  | .ok result =>
    emit (match a.format with
      | .markdown => result.markdown
      | .json => result.toJson.pretty) a.output
    let breaking := result.hasBreakingChanges || 0 < result.count .removed
    pure (if breaking && a.failOnBreaking then 2 else 0)

/-- Lists the readers. -/
def listParsers (format : String) : m Unit :=
  Host.say ((if format == "json" then Registry.defaults.toJson.pretty
    else Registry.defaults.table) ++ "\n")

/-- Drops all entries of the cache. -/
def clearCache (c : Config) : Action m Unit := do
  let (count, cache) := (← openCache c.cache).size
  let (cleared, cache) := cache.clear
  (keepCache c.cache cache : m _)
  if cleared then
    (Host.say s!"✓ Cleared {cache.backend} cache ({count} entries)\n" : m _)
  else
    throw (.config s!"Failed to clear {cache.backend} cache at {c.cache.path}")

/-- Drops the expired entries of the cache. -/
def purgeCache (c : Config) : Action m Unit := do
  let (count, cache) := (← openCache c.cache).purge (← (Host.now : m _))
  (keepCache c.cache cache : m _)
  (Host.say s!"✓ Purged {count} expired entries\n" : m _)

/-- Writes the settings in force. -/
def showConfig (c : Config) (format : String) : Action m Unit := do
  let text ← if format == "json" then pure c.toJson.pretty else ExceptT.mk (pure c.render)
  (Host.say (Text.trimmedRight text ++ "\n") : m _)

/-- Lists the files of settings. -/
def configPaths : m Unit := do
  let present (path : String) : m String := do
    return (if (← Host.kind? path).isSome then "✓ " else "✗ ") ++ path
  let user ← match userConfig? (← Host.variables) with
    | some path => present path
    | none => pure "(not available)"
  let project ← present projectConfig
  Host.say ("Configuration paths:\n\n  Global:  " ++ user ++ "\n  Project: " ++ project ++ "\n")

/-- Performs a command. -/
def perform (i : Invocation) : Action m Nat := do
  match i.command with
  | .configPaths => (configPaths : m _); pure 0
  | .parsers format => (listParsers format : m _); pure 0
  | command =>
    let c ← settings i.config
    match command with
    | .parse a => parse c a
    | .diff a => compare c a
    | .clearCache => do clearCache c; pure 0
    | .purgeCache => do purgeCache c; pure 0
    | .showConfig format => do showConfig c format; pure 0
    | _ => pure 0

/-- Runs the program. -/
def run (args : List String) : m Conclusion := do
  match Invocation.ofArguments args with
  | .error .misuse => return .misused
  | .error .version => do Host.say versionText; return .done 0
  | .error .help => do Host.say helpText; return .done 0
  | .ok i =>
    match ← (perform i).run with
    | .ok status => return .done status
    | .error e => do Host.complain e.report; return .done 1

end Program

end ApiCanon
