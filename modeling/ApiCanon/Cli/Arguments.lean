import ApiCanon.Error
import ApiCanon.Json.Reader
import ApiCanon.Text.Case

/-!
# The command line

How a list of arguments becomes a command.

Options have a long name after two hyphens, and some have a letter after one.  The value of an
option is the next argument, or follows the name after an equals sign, or follows the letter at
once; letters without values may stand together behind one hyphen.  An option may be given once.
Behind a lone double hyphen there are operands only.

The arguments are read from left to right, and the first one that does not fit decides; what is
missing is found out at the end.
-/

namespace ApiCanon

/-- The form of a report. -/
inductive ReportFormat where
  | markdown
  | json
  deriving DecidableEq, Repr, Inhabited

namespace ReportFormat

def text : ReportFormat → String
  | markdown => "markdown"
  | json => "json"

/-- Reads a name in any case. -/
def ofText? (s : String) : Option ReportFormat :=
  [("markdown", markdown), ("md", markdown), ("json", json)].lookup (Text.lower s)

/-- The complaint about a text that is no format. -/
def unknownMessage (s : String) : String :=
  s!"Invalid format '{s}'. Valid values: markdown, json"

end ReportFormat

/-- Reads a configuration for a reader: a JSON object. -/
def readConfigArgument (text : String) : Except AppError Json.Value :=
  match Json.read text.toList with
  | .error e => .error (.json e)
  | .ok (.object f) => .ok (.object f)
  | .ok _ => .error (.config "parser config must be a JSON object")

/-- An option of a command. -/
structure OptionSpec where
  name : String
  letter : Option Char
  valued : Bool
  deriving DecidableEq, Repr

/-- Why there is no command to perform. -/
inductive Halt where
  /-- The arguments do not fit. -/
  | misuse
  /-- The version is asked for. -/
  | version
  /-- Help is asked for. -/
  | help
  deriving DecidableEq, Repr, Inhabited

/-- What the arguments of a command hold. -/
structure Scan where
  /-- The options by name, with their values; newest first. -/
  options : List (String × String)
  operands : List String
  /-- The name and the arguments of a command below this one. -/
  inner : Option (String × List String)
  deriving Repr, Inhabited

/-- What a level of the command line admits. -/
structure Level where
  options : List OptionSpec
  /-- The names of the commands below; where there are any there are no operands. -/
  commands : List String
  /-- Whether the version can be asked for. -/
  versioned : Bool
  deriving Repr

namespace Scan

def empty : Scan := ⟨[], [], none⟩

/-- Notes an option, which must be new. -/
def note (s : Scan) (name value : String) : Except Halt Scan :=
  if (s.options.lookup name).isSome then .error .misuse
  else .ok { s with options := (name, value) :: s.options }

def value? (s : Scan) (name : String) : Option String := s.options.lookup name

def has (s : Scan) (name : String) : Bool := (s.value? name).isSome

end Scan

namespace Level

/-- Letters behind a hyphen: the options without values, and the option at the end that needs a
value, with the value if it follows at once. -/
def letters (l : Level) (s : Scan) :
    List Char → Except Halt (Scan × Option (String × Option String))
  | [] => .ok (s, none)
  | c :: r =>
    if c == 'h' then .error .help
    else if c == 'V' && l.versioned then .error .version
    else
      match l.options.find? fun o => o.letter == some c with
      | none => .error .misuse
      | some o =>
        if o.valued then
          match r with
          | [] => .ok (s, some (o.name, none))
          | '=' :: v => .ok (s, some (o.name, some (String.ofList v)))
          | v => .ok (s, some (o.name, some (String.ofList v)))
        else do l.letters (← s.note o.name "") r

/-- A name behind two hyphens, with what follows its equals sign. -/
def longName (l : Level) (s : Scan) (name : String) (value : Option String) :
    Except Halt (Scan × Option (String × Option String)) :=
  if name == "help" then .error (if value.isSome then .misuse else .help)
  else if name == "version" && l.versioned then .error (if value.isSome then .misuse else .version)
  else
    match l.options.find? fun o => o.name == name with
    | none => .error .misuse
    | some o =>
      if o.valued then .ok (s, some (name, value))
      else if value.isSome then .error .misuse
      else (s.note name "").map fun s => (s, none)

/-- Whether an argument is an option and not a value. -/
def looksLikeOption (a : String) : Bool :=
  match a.toList with
  | '-' :: _ :: _ => true
  | _ => false

/-- An operand, or the name of a command below. -/
def operand (l : Level) (s : Scan) (a : String) : Except Halt Scan :=
  if l.commands.isEmpty then .ok { s with operands := s.operands ++ [a] } else .error .misuse

/-- An option as far as its own argument goes. -/
def option (l : Level) (s : Scan) (a : String) :
    Except Halt (Scan × Option (String × Option String)) :=
  match a.toList with
  | '-' :: '-' :: cs =>
    match Text.splitAtFirst? (· == '=') cs with
    | some (name, value) => l.longName s (String.ofList name) (some (String.ofList value))
    | none => l.longName s (String.ofList cs) none
  | _ :: cs => l.letters s cs
  | [] => .error .misuse

/-- Goes through the arguments. -/
def scan (l : Level) (s : Scan) : List String → Except Halt Scan
  | [] => .ok s
  | a :: rest =>
    if a == "--" then rest.foldlM l.operand s
    else if looksLikeOption a then
      match l.option s a with
      | .error h => .error h
      | .ok (s, none) => l.scan s rest
      | .ok (s, some (name, some v)) =>
        match s.note name v with
        | .error h => .error h
        | .ok s => l.scan s rest
      | .ok (s, some (name, none)) =>
        match rest with
        | [] => .error .misuse
        | v :: rest =>
          if looksLikeOption v then .error .misuse
          else
            match s.note name v with
            | .error h => .error h
            | .ok s => l.scan s rest
    else if l.commands.contains a then .ok { s with inner := some (a, rest) }
    else if !l.commands.isEmpty && a == "help" then .error .help
    else
      match l.operand s a with
      | .error h => .error h
      | .ok s => l.scan s rest

end Level

/-! ## Commands -/


/-- Reads sources. -/
structure ParseArguments where
  tag : String
  files : List String
  parserConfig : Option String
  output : Option String
  compact : Bool
  deriving Repr, Inhabited

/-- Compares two versions of a description. -/
structure DiffArguments where
  old : String
  new : String
  tag : String
  newTag : Option String
  parserConfig : Option String
  format : ReportFormat
  ignoreDescriptions : Bool
  noSchemas : Bool
  failOnBreaking : Bool
  output : Option String
  deriving Repr, Inhabited

/-- What is to be done. -/
inductive Command where
  | parse (a : ParseArguments)
  | diff (a : DiffArguments)
  | parsers (format : String)
  | clearCache
  | purgeCache
  | showConfig (format : String)
  | configPaths
  deriving Repr, Inhabited

/-- A command with the file of settings to use. -/
structure Invocation where
  config : Option String
  command : Command
  deriving Repr, Inhabited

namespace Invocation

/-- The options that stand at every level. -/
def everywhere : List OptionSpec :=
  [⟨"config", some 'c', true⟩, ⟨"verbose", none, false⟩, ⟨"quiet", some 'q', false⟩]

def level (options : List OptionSpec) (commands : List String) : Level :=
  ⟨everywhere ++ options, commands, false⟩

def root : Level :=
  { level [] ["parse", "diff", "parsers", "cache", "config"] with versioned := true }

/-- A path, which is not empty. -/
def path (s : String) : Except Halt String := if s.isEmpty then .error .misuse else .ok s

def optionalPath : Option String → Except Halt (Option String)
  | none => .ok none
  | some s => (path s).map some

/-- What must be given. -/
def given : Option String → Except Halt String
  | some s => .ok s
  | none => .error .misuse

/-- The command of two levels that only choose: the name of the lower one, with its scan. -/
def chosen (commands : List (String × List OptionSpec)) (args : List String) :
    Except Halt (Scan × String × Scan) := do
  let outer ← (level [] (commands.map (·.1))).scan .empty args
  match outer.inner with
  | none => .error .misuse
  | some (name, rest) =>
    let inner ← (level ((commands.lookup name).getD []) []).scan .empty rest
    if inner.operands.isEmpty then .ok (outer, name, inner) else .error .misuse

def tagOption : OptionSpec := ⟨"type", some 't', true⟩

def parserConfigOption : OptionSpec := ⟨"parser-config", none, true⟩

def outputOption : OptionSpec := ⟨"output", some 'o', true⟩

def formatOption : OptionSpec := ⟨"format", some 'f', true⟩

def parseLevel : Level :=
  level [tagOption, parserConfigOption, outputOption, ⟨"compact", none, false⟩] []

def diffLevel : Level :=
  level
    [tagOption, ⟨"new-type", none, true⟩, parserConfigOption, formatOption,
      ⟨"ignore-descriptions", none, false⟩, ⟨"no-schemas", none, false⟩,
      ⟨"fail-on-breaking", none, false⟩, outputOption] []

def parseCommand (s : Scan) : Except Halt Command := do
  let tag ← given (s.value? "type")
  let files ← s.operands.mapM path
  let output ← optionalPath (s.value? "output")
  if files.isEmpty then .error .misuse
  else pure (.parse ⟨tag, files, s.value? "parser-config", output, s.has "compact"⟩)

def diffCommand (s : Scan) : Except Halt Command := do
  let tag ← given (s.value? "type")
  let output ← optionalPath (s.value? "output")
  let format ← match ReportFormat.ofText? ((s.value? "format").getD "markdown") with
    | some f => pure f
    | none => .error .misuse
  match ← s.operands.mapM path with
  | [old, new] =>
    pure (.diff ⟨old, new, tag, s.value? "new-type", s.value? "parser-config", format,
      s.has "ignore-descriptions", s.has "no-schemas", s.has "fail-on-breaking", output⟩)
  | _ => .error .misuse

/-- The command of a name, with the scans of the levels below the root. -/
def commandOf (name : String) (args : List String) : Except Halt (List Scan × Command) :=
  match name with
  | "parse" => do
    let s ← parseLevel.scan .empty args
    pure ([s], ← parseCommand s)
  | "diff" => do
    let s ← diffLevel.scan .empty args
    pure ([s], ← diffCommand s)
  | "parsers" => do
    let s ← (level [formatOption] []).scan .empty args
    if s.operands.isEmpty then pure ([s], .parsers ((s.value? "format").getD "text"))
    else .error .misuse
  | "cache" => do
    let (outer, name, inner) ← chosen [("clear", []), ("purge", [])] args
    pure ([outer, inner], if name == "clear" then .clearCache else .purgeCache)
  | _ => do
    let (outer, name, inner) ← chosen [("show", [formatOption]), ("path", [])] args
    pure ([outer, inner], if name == "show" then .showConfig ((inner.value? "format").getD "toml")
      else .configPaths)

/-- Reads the arguments.  A file of settings may be named at every level; the innermost one
counts. -/
def ofArguments (args : List String) : Except Halt Invocation := do
  let outer ← root.scan .empty args
  match outer.inner with
  | none => .error .misuse
  | some (name, rest) =>
    let (scans, command) ← commandOf name rest
    let configs ← ((outer :: scans).filterMap (·.value? "config")).mapM path
    pure ⟨configs.getLast?, command⟩

end Invocation

end ApiCanon
