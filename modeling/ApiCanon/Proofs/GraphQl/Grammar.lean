import ApiCanon.Proofs.GraphQl.Phrases

/-!
# The grammar of the schema language

The rules of the schema language, each with what its phrases stand for.  A document is any number of
definitions; a definition may have a description in front of it and may extend an earlier one.
Values and the arguments of directives stand for nothing: of brackets inside of them only those of
the outermost kind have to match, whatever else is between.
-/

namespace ApiCanon.GraphQl.Grammar

open Phrase

variable {α : Type}

/-- A description, of which an empty text is none. -/
def description : Phrase (Option String) := optional none do
  let s ← text
  return if s.isEmpty then none else some s

/-! ## Brackets, values and directives -/

/-- What may stand between brackets of one kind: any tokens, as long as these brackets match. -/
inductive Content (opening closing : Char) : List Token → Prop
  | nil : Content opening closing []
  | other {t : Token} {l : List Token} (opens : t.lexeme ≠ .punct opening)
      (closes : t.lexeme ≠ .punct closing) (rest : Content opening closing l) :
      Content opening closing (t :: l)
  | nested {l m : List Token} (line line' : Nat) (inner : Content opening closing l)
      (rest : Content opening closing m) :
      Content opening closing (⟨.punct opening, line⟩ :: (l ++ ⟨.punct closing, line'⟩ :: m))

/-- Brackets with their content. -/
def balanced (opening closing : Char) : Phrase Unit := do
  punct opening
  (⟨fun _ ts => Content opening closing ts⟩ : Phrase Unit)
  punct closing

def value : Phrase Unit :=
  balanced '[' ']' <|>
  balanced '\x7b' '\x7d' <|>
  (do punct '$'; let _ ← name) <|>
  (do let _ ← name) <|>
  (do let _ ← text) <|>
  number

def defaultValue : Phrase Unit := optional () do
  punct '='
  value

def directive : Phrase String := do
  punct '@'
  let n ← name
  optional () (balanced '(' ')')
  return n

def directives : Phrase (List String) := many directive

/-! ## Types -/

/-- The mark of non-null behind a type, if it is there. -/
def mark (t : TypeExpr) : Phrase TypeExpr := optional t do
  punct '!'
  return .nonNull t

/-- A name, or a type in brackets. -/
inductive Unmarked : TypeExpr → List Token → Prop
  | named (n : String) (line : Nat) : Unmarked (.named n) [⟨.name n, line⟩]
  | list {t u : TypeExpr} {l m : List Token} (line line' : Nat) (item : Unmarked t l)
      (marked : mark t u m) :
      Unmarked (.list u) (⟨.punct '[', line⟩ :: (l ++ m ++ [⟨.punct ']', line'⟩]))

def typeExpr : Phrase TypeExpr := do
  let t ← (⟨Unmarked⟩ : Phrase TypeExpr)
  mark t

/-! ## Arguments and fields -/

/-- What stands behind the name of an argument or a field. -/
def typed : Phrase (TypeExpr × List String) := do
  punct ':'
  let t ← typeExpr
  defaultValue
  let ds ← directives
  return (t, ds)

/-- A phrase any number of times between brackets. -/
def enclosed (opening closing : Char) (g : Phrase α) : Phrase (List α) := do
  punct opening
  let as ← many g
  punct closing
  return as

def argument : Phrase Argument := do
  let d ← description
  let n ← name
  let (t, _) ← typed
  return ⟨d, n, t⟩

def arguments : Phrase (List Argument) := optional [] (enclosed '(' ')' argument)

/-- The arguments of a field; those of an input have none. -/
def fieldArguments (kind : ObjectKind) : Phrase (List Argument) :=
  if kind = .input then pure [] else arguments

def field (kind : ObjectKind) : Phrase Field := do
  let d ← description
  let (n, line) ← placedName
  let as ← fieldArguments kind
  let (t, ds) ← typed
  return ⟨d, n, as, t, ds.contains "deprecated", line⟩

/-! ## Definitions -/

/-- Names with separators between them. -/
def names (separator : Char) : Phrase (List String) := do
  let n ← name
  let ns ← many do
    punct separator
    name
  return n :: ns

/-- Names with separators between them, and maybe one in front. -/
def separated (separator : Char) : Phrase (List String) := do
  optional () (punct separator)
  names separator

/-- An operation with its type. -/
def root : Phrase (String × String) := do
  let operation ← name
  punct ':'
  let type ← name
  return (operation, type)

def schemaBlock : Phrase (Option Definition) := do
  let _ ← directives
  let rs ← enclosed '\x7b' '\x7d' root
  return some (.roots rs)

def object (kind : ObjectKind) (d : Option String) (extension : Bool) (line : Nat) :
    Phrase (Option Definition) := do
  let n ← name
  let _ ← optional [] do
    word "implements"
    separated '&'
  let _ ← directives
  let fs ← optional [] (enclosed '\x7b' '\x7d' (field kind))
  return some (.object kind n d fs extension line)

def enumValue : Phrase String := do
  let _ ← description
  let n ← name
  let _ ← directives
  return n

def enum (d : Option String) : Phrase (Option Definition) := do
  let n ← name
  let _ ← directives
  let vs ← optional [] (enclosed '\x7b' '\x7d' enumValue)
  return some (.enum n d vs)

def union (d : Option String) : Phrase (Option Definition) := do
  let n ← name
  let _ ← directives
  let _ ← optional [] do
    punct '='
    separated '|'
  return some (.union n d)

def scalar : Phrase (Option Definition) := do
  let n ← name
  let _ ← directives
  return some (.scalar n)

/-- The definition of a directive, which leaves nothing behind. -/
def directiveDefinition : Phrase (Option Definition) := do
  punct '@'
  let _ ← name
  let _ ← arguments
  optional () (word "repeatable")
  word "on"
  let _ ← separated '|'
  return none

/-- What stands behind a description.  The line of an object is that of its first word. -/
def described (d : Option String) (e : Option Nat) : Phrase (Option Definition) := keyed [
  ("schema", fun _ => schemaBlock),
  ("type", fun line => object .type d e.isSome (e.getD line)),
  ("input", fun line => object .input d e.isSome (e.getD line)),
  ("interface", fun line => object .interface d e.isSome (e.getD line)),
  ("enum", fun _ => enum d),
  ("union", fun _ => union d),
  ("scalar", fun _ => scalar),
  ("directive", fun _ => directiveDefinition)]

/-- The mark of an extension: its line, if it is there. -/
def extended : Phrase (Option Nat) := optional none do
  let line ← placedWord "extend"
  return some line

def definition : Phrase (Option Definition) := do
  let d ← description
  let e ← extended
  described d e

def document : Phrase (List Definition) := do
  let ds ← many definition
  return ds.reduceOption

end ApiCanon.GraphQl.Grammar
