import ApiCanon.Model.Endpoint
import ApiCanon.Time.Timestamp

/-!
# Descriptions of an API

The common form that every kind of source is read into: endpoints in the order of the source,
schemas by name, and what the source says about the project.

## Building

Verb and path identify an endpoint and the name a schema.  `Draft` accepts the first of each and
refuses later ones, so what is built has no two of one identity.
-/

namespace ApiCanon

/-- What is known about a source as a whole. -/
structure Metadata where
  sourceType : String
  projectName : Option String
  projectVersion : Option String
  /-- When the source was read; left out of structural equality. -/
  parsedAt : Option Timestamp
  extra : SortedMap Json.Value
  deriving Repr, Inhabited

/-- The description of an API. -/
structure Ast where
  endpoints : List Endpoint
  schemas : SortedMap Schema
  metadata : Metadata
  /-- Whether some reference leads nowhere. -/
  unresolved : Bool
  deriving Repr, Inhabited

namespace Ast

def endpoint? (a : Ast) (method : Method) (path : String) : Option Endpoint :=
  a.endpoints.find? fun e => e.method == method && e.path == path

def schema? (a : Ast) (name : String) : Option Schema := a.schemas.get? name

/-! ## Equality -/

/-- Whether two lists of endpoints agree one by one. -/
def sameEndpoints : List Endpoint → List Endpoint → Bool
  | [], [] => true
  | a :: r, b :: s => a.same b && sameEndpoints r s
  | _, _ => false

/-- Whether two lists of entries agree one by one. -/
def sameExtra : List (String × Json.Value) → List (String × Json.Value) → Bool
  | [], [] => true
  | (k, v) :: r, (l, w) :: s => k == l && v.same w && sameExtra r s
  | _, _ => false

/-- Equality but for the moment of reading. -/
def structurallyEq (a b : Ast) : Bool :=
  sameEndpoints a.endpoints b.endpoints && a.schemas == b.schemas &&
    a.unresolved == b.unresolved && a.metadata.sourceType == b.metadata.sourceType &&
    a.metadata.projectName == b.metadata.projectName &&
    a.metadata.projectVersion == b.metadata.projectVersion &&
    sameExtra a.metadata.extra.entries b.metadata.extra.entries

/-- Equality. -/
def same (a b : Ast) : Bool :=
  structurallyEq a b && a.metadata.parsedAt == b.metadata.parsedAt

/-! ## References and groups -/

/-- All references, in no particular order and with repetitions. -/
def references (a : Ast) : List String :=
  a.endpoints.flatMap Endpoint.referencedNames ++ a.schemas.values.flatMap Schema.referencedNames

/-- The names that are referred to, in ascending order. -/
def referencedNames (a : Ast) : List String := sortedNames a.references

/-- The names that are referred to without being schemas, in ascending order. -/
def unresolvedNames (a : Ast) : List String :=
  a.referencedNames.filter fun n => !a.schemas.contains n

/-- Adds an endpoint to its group: at the end of the group, or as a group of its own at the end. -/
def addToGroup (group : String) (e : Endpoint) :
    List (String × List Endpoint) → List (String × List Endpoint)
  | [] => [(group, [e])]
  | (g, members) :: r =>
    if g = group then (g, members ++ [e]) :: r else (g, members) :: addToGroup group e r

/-- The endpoints by their first tags, or by a default where there is none; the groups in the
order of their first members. -/
def groupedEndpoints (a : Ast) (default : String) : List (String × List Endpoint) :=
  a.endpoints.foldl (fun groups e => addToGroup (e.group?.getD default) e groups) []

/-! ## Enhancement -/

/-- The description written for an endpoint, if there is one; the last one counts. -/
def enhancement? (texts : List (EndpointKey × String)) (k : EndpointKey) : Option String :=
  (texts.reverse.find? fun p => p.1 == k).map (·.2)

/-- The same description of the API with further descriptions of endpoints. -/
def withEnhancements (a : Ast) (texts : List (EndpointKey × String)) : Ast :=
  { a with
    endpoints := a.endpoints.map fun e =>
      match enhancement? texts e.key with
      | some t => { e with enhancedDescription := some t }
      | none => e }

/-- Marks the references as resolved or not. -/
def markUnresolved (a : Ast) (unresolved : Bool) : Ast := { a with unresolved := unresolved }

/-- Notes the moment of reading. -/
def stamp (a : Ast) (now : Timestamp) : Ast :=
  { a with metadata := { a.metadata with parsedAt := some now } }

/-- The description without the moment of reading. -/
def unstamped (a : Ast) : Ast := { a with metadata := { a.metadata with parsedAt := none } }

end Ast

/-! ## Drafts -/

/-- A description under construction. -/
structure Draft where
  ast : Ast
  deriving Inhabited

namespace Draft

/-- Nothing but the type of the source. -/
def start (sourceType : String) : Draft where
  ast :=
    { endpoints := []
      schemas := .empty
      metadata := ⟨sourceType, none, none, none, .empty⟩
      unresolved := false }

/-- Sets the name and the version of the project, as far as they are given. -/
def project (d : Draft) (name version : Option String) : Draft where
  ast := { d.ast with
    metadata := { d.ast.metadata with
      projectName := name <|> d.ast.metadata.projectName
      projectVersion := version <|> d.ast.metadata.projectVersion } }

/-- Keeps a value of the source under a key. -/
def extra (d : Draft) (key : String) (v : Json.Value) : Draft where
  ast := { d.ast with
    metadata := { d.ast.metadata with extra := d.ast.metadata.extra.insert key v } }

/-- Whether an endpoint of this key is there. -/
def hasEndpoint (d : Draft) (k : EndpointKey) : Bool := d.ast.endpoints.any fun e => e.key == k

def hasSchema (d : Draft) (name : String) : Bool := d.ast.schemas.contains name

def endpointCount (d : Draft) : Nat := d.ast.endpoints.length

/-- Adds an endpoint unless one of its key is there; also says whether it did. -/
def addEndpoint (d : Draft) (e : Endpoint) : Draft × Bool :=
  if d.hasEndpoint e.key then (d, false)
  else (⟨{ d.ast with endpoints := d.ast.endpoints ++ [e] }⟩, true)

/-- Adds a schema unless one of its name is there; also says whether it did. -/
def addSchema (d : Draft) (s : Schema) : Draft × Bool :=
  if d.hasSchema s.name then (d, false)
  else (⟨{ d.ast with schemas := d.ast.schemas.insert s.name s }⟩, true)

end Draft

end ApiCanon
