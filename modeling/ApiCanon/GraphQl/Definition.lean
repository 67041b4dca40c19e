import ApiCanon.GraphQl.Token

/-!
# Definitions of the schema language

What a schema document defines, and the reader of definitions from tokens.  Values and the
arguments of directives are passed over: only their brackets have to match.

## Faults

A fault keeps the tokens that are left where it was found.  Its line is that of the next token,
or of the last one at the end of the document.
-/

namespace ApiCanon.GraphQl

/-- A type as written. -/
inductive TypeExpr where
  | named (name : String)
  | list (item : TypeExpr)
  | nonNull (inner : TypeExpr)
  deriving DecidableEq, Repr, Inhabited

def TypeExpr.isNonNull : TypeExpr → Bool
  | nonNull _ => true
  | _ => false

/-- An argument of a field. -/
structure Argument where
  description : Option String
  name : String
  type : TypeExpr
  deriving DecidableEq, Repr, Inhabited

/-- A field of an object, an input or an interface. -/
structure Field where
  description : Option String
  name : String
  arguments : List Argument
  type : TypeExpr
  deprecated : Bool
  line : Nat
  deriving DecidableEq, Repr, Inhabited

/-- The three kinds of definitions with fields. -/
inductive ObjectKind where
  | type
  | input
  | interface
  deriving DecidableEq, Repr, Inhabited

/-- A definition of a document; those of directives leave nothing behind. -/
inductive Definition where
  | object (kind : ObjectKind) (name : String) (description : Option String)
      (fields : List Field) (extension : Bool) (line : Nat)
  | enum (name : String) (description : Option String) (values : List String)
  | union (name : String) (description : Option String)
  | scalar (name : String)
  /-- The operations of a schema block with their types. -/
  | roots (entries : List (String × String))
  deriving DecidableEq, Repr, Inhabited

/-! ## Faults -/

/-- Why tokens are not definitions. -/
inductive Cause where
  | expected (c : Char)
  | nameExpected
  | valueExpected
  | onExpected
  | unterminatedEnum
  | unterminatedFields
  | unterminatedArguments
  | unbalanced (c : Char)
  | executable
  | unexpectedKeyword (word : String)
  deriving DecidableEq, Repr

def Cause.message : Cause → String
  | expected c => "Expected '" ++ String.singleton c ++ "'"
  | nameExpected => "Expected a name"
  | valueExpected => "Expected a value"
  | onExpected => "Expected 'on' in directive definition"
  | unterminatedEnum => "Unterminated enum body"
  | unterminatedFields => "Unterminated field list"
  | unterminatedArguments => "Unterminated argument list"
  | unbalanced c => "Unbalanced '" ++ String.singleton c ++ "'"
  | executable => "Executable definitions are not part of a schema"
  | unexpectedKeyword w => "Unexpected keyword '" ++ w ++ "'"

/-- A fault and the tokens left where it was found. -/
structure Fault where
  cause : Cause
  rest : List Token
  deriving DecidableEq, Repr

/-- The line of what comes next, where `last` is the last line with a token. -/
def lineOf (last : Nat) : List Token → Nat
  | t :: _ => t.line
  | [] => last

/-- What a reader makes of tokens; most readers also give the tokens left. -/
abbrev Read := Except Fault

/-! ## Single tokens -/

/-- Whether the next token is a given punctuation. -/
def atPunct (c : Char) : List Token → Bool
  | ⟨.punct d, _⟩ :: _ => d == c
  | _ => false

/-- Drops a given punctuation, if it comes next. -/
def skipPunct (c : Char) (ts : List Token) : List Token :=
  if atPunct c ts then ts.tail else ts

def expectPunct (c : Char) (ts : List Token) : Read (List Token) :=
  if atPunct c ts then .ok ts.tail else .error ⟨.expected c, ts⟩

/-- Whether the next token is a given name. -/
def atName (word : String) : List Token → Bool
  | ⟨.name n, _⟩ :: _ => n == word
  | _ => false

def expectName : List Token → Read (String × List Token)
  | ⟨.name n, _⟩ :: r => .ok (n, r)
  | ts => .error ⟨.nameExpected, ts⟩

/-- A description, if a text comes next; an empty one is none. -/
def description : List Token → Option String × List Token
  | ⟨.text s, _⟩ :: r => (nonEmptyText s, r)
  | ts => (none, ts)
where
  nonEmptyText (s : String) : Option String := if s.isEmpty then none else some s

/-! ## Brackets, values and directives -/

/-- What follows the bracket that closes an open one; `depth` counts the brackets of the same
kind opened since. -/
def afterClosing (opening closing : Char) (depth : Nat) : List Token → Read (Unit × List Token)
  | [] => .error ⟨.unbalanced opening, []⟩
  | ⟨.punct c, _⟩ :: r =>
    if c = opening then afterClosing opening closing (depth + 1) r
    else if c = closing then
      match depth with
      | 0 => .ok ((), r)
      | d + 1 => afterClosing opening closing d r
    else afterClosing opening closing depth r
  | _ :: r => afterClosing opening closing depth r

/-- Passes over a value. -/
def skipValue : List Token → Read (Unit × List Token)
  | ⟨.punct '[', _⟩ :: r => afterClosing '[' ']' 0 r
  | ⟨.punct '\x7b', _⟩ :: r => afterClosing '\x7b' '\x7d' 0 r
  | ⟨.punct '$', _⟩ :: r => (expectName r).map fun (_, r) => ((), r)
  | ⟨.name _, _⟩ :: r => .ok ((), r)
  | ⟨.text _, _⟩ :: r => .ok ((), r)
  | ⟨.number _, _⟩ :: r => .ok ((), r)
  | ts => .error ⟨.valueExpected, ts⟩

/-- Passes over a default value, if there is one. -/
def skipDefault (ts : List Token) : Read (Unit × List Token) :=
  if atPunct '=' ts then skipValue ts.tail else .ok ((), ts)

/-- The names of the directives that come next.  `depth` counts the parentheses open inside of
the arguments of one. -/
def directives (depth : Nat) : List Token → Read (List String × List Token)
  | [] => if depth = 0 then .ok ([], []) else .error ⟨.unbalanced '(', []⟩
  | t :: r =>
    match depth with
    | 0 =>
      if t.lexeme = .punct '@' then
        match r with
        | ⟨.name n, _⟩ :: r =>
          match r with
          | ⟨.punct '(', _⟩ :: r => (directives 1 r).map fun (ns, r) => (n :: ns, r)
          | r => (directives 0 r).map fun (ns, r) => (n :: ns, r)
        | r => .error ⟨.nameExpected, r⟩
      else .ok ([], t :: r)
    | d + 1 =>
      if t.lexeme = .punct '(' then directives (d + 2) r
      else if t.lexeme = .punct ')' then directives d r
      else directives (d + 1) r

/-! ## Types -/

/-- Closes the lists around a type from the inside, marks of non-null included. -/
def closeLists (depth : Nat) (t : TypeExpr) (ts : List Token) : Read (TypeExpr × List Token) :=
  let (t, ts) := if atPunct '!' ts then (.nonNull t, ts.tail) else (t, ts)
  match depth with
  | 0 => .ok (t, ts)
  | d + 1 => do
    let ts ← expectPunct ']' ts
    closeLists d (.list t) ts

/-- Reads a type inside of `depth` lists that have been opened. -/
def typeExpr (depth : Nat) : List Token → Read (TypeExpr × List Token)
  | ⟨.punct '[', _⟩ :: r => typeExpr (depth + 1) r
  | ⟨.name n, _⟩ :: r => closeLists depth (.named n) r
  | ts => .error ⟨.nameExpected, ts⟩

/-! ## Arguments and fields -/

/-- Reads a typed name with its default and its directives. -/
def typedName (ts : List Token) : Read ((TypeExpr × List String) × List Token) := do
  let ts ← expectPunct ':' ts
  let (t, ts) ← typeExpr 0 ts
  let ((), ts) ← skipDefault ts
  let (ds, ts) ← directives 0 ts
  pure ((t, ds), ts)

/-- Reads an argument. -/
def argument (ts : List Token) : Read (Argument × List Token) := do
  let (d, ts) := description ts
  let (n, ts) ← expectName ts
  let ((t, _), ts) ← typedName ts
  pure (⟨d, n, t⟩, ts)

/-- Reads arguments up to the closing parenthesis; every argument takes a token, so that their
number bounds `fuel`. -/
def argumentsFrom (fuel : Nat) (ts : List Token) : Read (List Argument × List Token) :=
  match fuel with
  | 0 => .error ⟨.unterminatedArguments, ts⟩
  | fuel + 1 =>
    if atPunct ')' ts then .ok ([], ts.tail)
    else if ts.isEmpty then .error ⟨.unterminatedArguments, ts⟩
    else do
      let (a, ts) ← argument ts
      let (as, ts) ← argumentsFrom fuel ts
      pure (a :: as, ts)

/-- Reads arguments in parentheses, if there are any. -/
def arguments (ts : List Token) : Read (List Argument × List Token) :=
  if atPunct '(' ts then argumentsFrom (ts.length + 1) ts.tail else .ok ([], ts)

/-- Reads a field; those of an input have no arguments. -/
def readField (kind : ObjectKind) (last : Nat) (ts : List Token) : Read (Field × List Token) := do
  let (d, ts) := description ts
  let line := lineOf last ts
  let (n, ts) ← expectName ts
  let (as, ts) ← if kind = .input then pure ([], ts) else arguments ts
  let ((t, ds), ts) ← typedName ts
  pure (⟨d, n, as, t, ds.contains "deprecated", line⟩, ts)

/-- Reads fields up to the closing brace. -/
def fieldsFrom (kind : ObjectKind) (last : Nat) (fuel : Nat) (ts : List Token) :
    Read (List Field × List Token) :=
  match fuel with
  | 0 => .error ⟨.unterminatedFields, ts⟩
  | fuel + 1 =>
    if atPunct '\x7d' ts then .ok ([], ts.tail)
    else if ts.isEmpty then .error ⟨.unterminatedFields, ts⟩
    else do
      let (f, ts) ← readField kind last ts
      let (fs, ts) ← fieldsFrom kind last fuel ts
      pure (f :: fs, ts)

/-- Reads fields in braces, if there are any. -/
def readFields (kind : ObjectKind) (last : Nat) (ts : List Token) :
    Read (List Field × List Token) :=
  if atPunct '\x7b' ts then fieldsFrom kind last (ts.length + 1) ts.tail else .ok ([], ts)

/-! ## Lists of names -/

/-- Reads names as long as a separator comes next. -/
def moreNames (separator : Char) : List Token → Read (List String × List Token)
  | [] => .ok ([], [])
  | t :: r =>
    if t.lexeme = .punct separator then
      match r with
      | ⟨.name n, _⟩ :: r => (moreNames separator r).map fun (ns, r) => (n :: ns, r)
      | r => .error ⟨.nameExpected, r⟩
    else .ok ([], t :: r)

/-- Reads names with separators between them, and maybe one in front. -/
def separatedNames (separator : Char) (ts : List Token) : Read (List String × List Token) := do
  let (n, ts) ← expectName (skipPunct separator ts)
  let (ns, ts) ← moreNames separator ts
  pure (n :: ns, ts)

/-- Reads the values of an enumeration up to the closing brace. -/
def enumValuesFrom (fuel : Nat) (ts : List Token) : Read (List String × List Token) :=
  match fuel with
  | 0 => .error ⟨.unterminatedEnum, ts⟩
  | fuel + 1 =>
    if atPunct '\x7d' ts then .ok ([], ts.tail)
    else if ts.isEmpty then .error ⟨.unterminatedEnum, ts⟩
    else do
      let (v, ts) ← expectName (description ts).2
      let (_, ts) ← directives 0 ts
      let (vs, ts) ← enumValuesFrom fuel ts
      pure (v :: vs, ts)

/-- Reads the operations of a schema block up to the closing brace. -/
def rootsFrom (fuel : Nat) (ts : List Token) : Read (List (String × String) × List Token) :=
  match fuel with
  | 0 => .error ⟨.nameExpected, ts⟩
  | fuel + 1 =>
    if atPunct '\x7d' ts then .ok ([], ts.tail)
    else do
      let (operation, ts) ← expectName ts
      let ts ← expectPunct ':' ts
      let (type, ts) ← expectName ts
      let (rest, ts) ← rootsFrom fuel ts
      pure ((operation, type) :: rest, ts)

/-! ## Definitions -/

/-- Reads an object, an input or an interface behind its keyword. -/
def readObject (kind : ObjectKind) (d : Option String) (extension : Bool) (line last : Nat)
    (ts : List Token) : Read (Option Definition × List Token) := do
  let (n, ts) ← expectName ts
  let (_, ts) ← if atName "implements" ts then separatedNames '&' ts.tail else pure ([], ts)
  let (_, ts) ← directives 0 ts
  let (fs, ts) ← readFields kind last ts
  pure (some (.object kind n d fs extension line), ts)

/-- Reads an enumeration behind its keyword. -/
def readEnum (d : Option String) (ts : List Token) : Read (Option Definition × List Token) := do
  let (n, ts) ← expectName ts
  let (_, ts) ← directives 0 ts
  let (vs, ts) ←
    if atPunct '\x7b' ts then enumValuesFrom (ts.length + 1) ts.tail else pure ([], ts)
  pure (some (.enum n d vs), ts)

/-- Reads a union behind its keyword. -/
def readUnion (d : Option String) (ts : List Token) : Read (Option Definition × List Token) := do
  let (n, ts) ← expectName ts
  let (_, ts) ← directives 0 ts
  let (_, ts) ← if atPunct '=' ts then separatedNames '|' ts.tail else pure ([], ts)
  pure (some (.union n d), ts)

/-- Reads the definition of a directive behind its keyword. -/
def readDirective (ts : List Token) : Read (Option Definition × List Token) := do
  let ts ← expectPunct '@' ts
  let (_, ts) ← expectName ts
  let (_, ts) ← arguments ts
  let ts := if atName "repeatable" ts then ts.tail else ts
  if atName "on" ts then
    let (_, ts) ← separatedNames '|' ts.tail
    pure (none, ts)
  else .error ⟨.onExpected, ts⟩

/-- Reads a schema block behind its keyword. -/
def readSchemaBlock (ts : List Token) : Read (Option Definition × List Token) := do
  let (_, ts) ← directives 0 ts
  let ts ← expectPunct '\x7b' ts
  let (roots, ts) ← rootsFrom (ts.length + 1) ts
  pure (some (.roots roots), ts)

/-- Reads a definition. -/
def readDefinition (last : Nat) (ts : List Token) : Read (Option Definition × List Token) := do
  let (d, ts) := description ts
  let line := lineOf last ts
  let extension := atName "extend" ts
  let ts := if extension then ts.tail else ts
  let (keyword, ts) ← expectName ts
  match keyword with
  | "schema" => readSchemaBlock ts
  | "type" => readObject .type d extension line last ts
  | "input" => readObject .input d extension line last ts
  | "interface" => readObject .interface d extension line last ts
  | "enum" => readEnum d ts
  | "union" => readUnion d ts
  | "scalar" => do
    let (n, ts) ← expectName ts
    let (_, ts) ← directives 0 ts
    pure (some (.scalar n), ts)
  | "directive" => readDirective ts
  | "query" => .error ⟨.executable, ts⟩
  | "mutation" => .error ⟨.executable, ts⟩
  | "subscription" => .error ⟨.executable, ts⟩
  | "fragment" => .error ⟨.executable, ts⟩
  | w => .error ⟨.unexpectedKeyword w, ts⟩

/-- Reads definitions up to the end. -/
def definitionsFrom (last : Nat) (fuel : Nat) (ts : List Token) : Read (List Definition) :=
  match fuel with
  | 0 => .error ⟨.nameExpected, ts⟩
  | fuel + 1 =>
    if ts.isEmpty then .ok []
    else do
      let (d, ts) ← readDefinition last ts
      let ds ← definitionsFrom last fuel ts
      pure (d.toList ++ ds)

/-- The last line with a token. -/
def lastLine (ts : List Token) : Nat := (ts.getLast?.map (·.line)).getD 1

/-- The definitions that tokens spell out. -/
def definitions (ts : List Token) : Read (List Definition) :=
  definitionsFrom (lastLine ts) (ts.length + 1) ts

/-- The definitions of a document. -/
def document (text : List Char) : Except Issue (List Definition) :=
  match tokens text with
  | .error (e, line) => .error (.parseErrorAt line e.message)
  | .ok ts =>
    match definitions ts with
    | .ok ds => .ok ds
    | .error e => .error (.parseErrorAt (lineOf (lastLine ts) e.rest) e.cause.message)

end ApiCanon.GraphQl
