import ApiCanon.Binary.Decimal
import ApiCanon.Config.Setting
import ApiCanon.Text.Blank

/-!
# Settings from the environment

A variable whose name begins with the mark of the program, in any case, is a setting.  The rest
of its name, in lower case, is the path, whose parts are separated by a double low line.

The value is read loosely: a truth value, a number, a text in quotes, a list in brackets or a
table in braces.  Whatever is none of these is a text as it stands.
-/

namespace ApiCanon

namespace Environment

/-- The mark in front of the names of settings. -/
def mark : String := "APIDOCGEN_"

/-! ## Loose values -/

/-- What ends a word. -/
def isSeparator (c : Char) : Bool :=
  c == ',' || c == '\x7b' || c == '\x7d' || c == '[' || c == ']'

def isBlank (c : Char) : Bool :=
  c == ' ' || c == '\t' || c == '\n' || c == '\r' || c.toNat == 12

def skipBlanks (s : List Char) : List Char := s.dropWhile isBlank

/-- A whole number that fits 64 bits with or without a sign. -/
def wholeOfWord? (w : List Char) : Option Scalar :=
  match Binary.Decimal.exponent? w with
  | none => none
  | some i =>
    if w.head? == some '-' then
      if -Nat.pow 2 63 ≤ i then (if i = 0 then some (.signed 0) else some (.signed i)) else none
    else if i < Nat.pow 2 64 then some (.unsigned i.toNat)
    else none

/-- The double nearest to a number in decimal notation, or a word for one without digits. -/
def doubleOfWord? (w : List Char) : Option Toml.Real :=
  let (negative, rest) := match w with
    | '-' :: r => (true, r)
    | '+' :: r => (false, r)
    | _ => (false, w)
  let name := Text.asciiLower (String.ofList rest)
  if name == "inf" || name == "infinity" then some (.infinite negative)
  else if name == "nan" then some (.notANumber negative)
  else
    (Binary.Decimal.ofText? rest).map fun d =>
      match Binary.double.ofDecimal? negative d.digits d.exponent with
      | some x => .finite x
      | none => .infinite negative

/-- The value of a word. -/
def scalarOfWord (w : List Char) : Scalar :=
  if w == ['t', 'r', 'u', 'e'] then .flag true
  else if w == ['f', 'a', 'l', 's', 'e'] then .flag false
  else
    match wholeOfWord? w with
    | some s => s
    | none =>
      match doubleOfWord? w with
      | some x => .real x
      | none => .text (String.ofList w)

/-- The rest of a text in quotes, with what follows it. -/
def quotedRest? (read : List Char) : List Char → Option (String × List Char)
  | '"' :: r => some (String.ofList read.reverse, r)
  | '\\' :: '"' :: r => quotedRest? ('"' :: read) r
  | '\\' :: '\\' :: r => quotedRest? ('\\' :: read) r
  | '\\' :: 'b' :: r => quotedRest? (Char.ofNat 8 :: read) r
  | '\\' :: 'f' :: r => quotedRest? (Char.ofNat 12 :: read) r
  | '\\' :: 'n' :: r => quotedRest? ('\n' :: read) r
  | '\\' :: 'r' :: r => quotedRest? ('\r' :: read) r
  | '\\' :: 't' :: r => quotedRest? ('\t' :: read) r
  | '\\' :: 'u' :: a :: b :: c :: d :: r =>
    match Toml.codePoint 4 [a, b, c, d] with
    | .ok (x, _) => quotedRest? (x :: read) r
    | .error _ => none
  | '\\' :: 'U' :: a :: b :: c :: d :: e :: f :: g :: h :: r =>
    match Toml.codePoint 8 [a, b, c, d, e, f, g, h] with
    | .ok (x, _) => quotedRest? (x :: read) r
    | .error _ => none
  | '\\' :: _ => none
  | c :: r =>
    if c == '\t' || (32 ≤ c.toNat && c.toNat != 127) then quotedRest? (c :: read) r else none
  | [] => none

/-- The key of a table entry. -/
def key? : List Char → Option (String × List Char)
  | '"' :: r => quotedRest? [] r
  | s =>
    let name := s.takeWhile Toml.inBareKey
    if name.isEmpty then none else some (String.ofList name, s.dropWhile Toml.inBareKey)

mutual
/-- A value, blanks around it skipped, with what follows it. -/
def value? : Nat → List Char → Option (Setting × List Char)
  | 0, _ => none
  | fuel + 1, s =>
    let result : Option (Setting × List Char) :=
      match skipBlanks s with
      | '\x7b' :: r => (entries? fuel r).map fun (e, rest) => (.table .environment e, rest)
      | '[' :: r => (items? fuel r).map fun (l, rest) => (.list .environment l, rest)
      | '"' :: r => (quotedRest? [] r).map fun (t, rest) => (.scalar .environment (.text t), rest)
      | '\'' :: c :: '\'' :: r => some (.scalar .environment (.text (String.ofList [c])), r)
      | '\'' :: _ => none
      | s =>
        let word := s.takeWhile fun c => !isSeparator c
        some (.scalar .environment (scalarOfWord (Text.trim word)),
          s.dropWhile fun c => !isSeparator c)
    result.map fun (v, rest) => (v, skipBlanks rest)

/-- The items of a list up to its closing bracket. -/
def items? : Nat → List Char → Option (List Setting × List Char)
  | 0, _ => none
  | fuel + 1, s =>
    match s with
    | ']' :: r => some ([], r)
    | s =>
      match value? fuel s with
      | some (v, ',' :: r) => (items? fuel r).map fun (l, rest) => (v :: l, rest)
      | some (v, ']' :: r) => some ([v], r)
      | _ => none

/-- The entries of a table up to its closing brace. -/
def entries? : Nat → List Char → Option (List (String × Setting) × List Char)
  | 0, _ => none
  | fuel + 1, s =>
    let put (k : String) (v : Setting) (e : List (String × Setting)) : List (String × Setting) :=
      if (e.lookup k).isSome then e else Setting.putEntry (fun _ s => s) k v e
    match s with
    | '\x7d' :: r => some ([], r)
    | s =>
      match key? (skipBlanks s) with
      | none => none
      | some (k, rest) =>
        match skipBlanks rest with
        | '=' :: rest =>
          match value? fuel rest with
          | some (v, ',' :: r) => (entries? fuel r).map fun (e, rest) => (put k v e, rest)
          | some (v, '\x7d' :: r) => some ([(k, v)], r)
          | _ => none
        | _ => none
end

/-- The value of a variable. -/
def valueOf (s : String) : Setting :=
  let cs := s.toList
  match value? (2 * cs.length + 2) cs with
  | some (v, []) => v
  | _ => .scalar .environment (.text s)

/-! ## Names -/

/-- The path of a setting, if a variable is one.  It ends in front of its first empty part. -/
def path? (name : String) : Option (List String) :=
  let name := Text.trim name.toList
  match Text.stripPrefix? (Text.asciiLower mark).toList (name.map Text.asciiLowerChar) with
  | none => none
  | some rest =>
    let points := Text.replaceAll ['_', '_'] ['.'] rest
    let parts := (Text.splitAll (· == '.') points).takeWhile fun p => !p.isEmpty
    if (Text.trim rest).isEmpty || parts.isEmpty then none else some (parts.map String.ofList)

/-- A value at the end of a path. -/
def nested (v : Setting) : List String → Setting
  | [] => v
  | k :: path => .table .environment [(k, nested v path)]

/-- The settings of an environment, later variables laid over earlier ones. -/
def settings (vars : List (String × String)) : Setting :=
  vars.foldl (fun s (name, text) =>
    match path? name with
    | some path => s.laidOver (nested (valueOf text) path)
    | none => s) (.table .environment [])

end Environment

/-! ## Loading -/

/-- A file of settings. -/
structure ConfigFile where
  /-- The path as messages show it. -/
  path : String
  text : String
  deriving Repr, Inhabited

/-- The settings of a file, or the report on why it has none. -/
def ConfigFile.settings (f : ConfigFile) : Except String Setting :=
  let source := f.text.toList
  match Toml.read source with
  | .ok entries => .ok (.ofToml (.file f.path) (.table entries))
  | .error e => .error (e.report source ++ " in " ++ f.path ++ " TOML file")

/-- The configuration of files and an environment, in this order over the defaults.  If files
are faulty, all of them are reported. -/
def Config.load (files : List ConfigFile) (environment : List (String × String)) :
    Except AppError Config :=
  let read := files.map ConfigFile.settings
  let faults := read.filterMap fun
    | .error report => some report
    | .ok _ => none
  let layers := read.filterMap Except.toOption ++ [Environment.settings environment]
  let failed (report : String) : Except AppError Config :=
    .error (.config ("Configuration error: " ++ report))
  if faults.isEmpty then
    match (layers.foldl Setting.laidOver (.ofConfig .defaults .default)).toConfig with
    | .ok c => c.checked
    | .error f => failed f.message
  else failed ("\n".intercalate faults)

/-- The failure to find a file of settings. -/
def Config.notFound (path : String) : AppError := .config ("Config file not found: " ++ path)

end ApiCanon
