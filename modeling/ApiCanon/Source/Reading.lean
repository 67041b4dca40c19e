import ApiCanon.Model.Ast
import ApiCanon.Source.Issue
import ApiCanon.Source.Settings

/-!
# Kinds of sources and readings

The closed set of source kinds that can be read, each with a tag by which requests name it, and what
a reader makes of the text of a source: a description or errors, and everything it noticed on the
way.

While a reader is under way, it has a draft and warnings.  Endpoints and schemas are added one by
one; one whose key or name is taken is left out with a warning.  An endpoint is completed with a
parameter for every placeholder of its path.
-/

namespace ApiCanon

/-! ## Kinds -/

/-- A kind of source. -/
inductive SourceKind where
  | openApi
  | swagger
  | express
  | jsDoc
  | python
  | go
  | graphQl
  deriving DecidableEq, Repr, Inhabited

namespace SourceKind

/-- All kinds, in their order. -/
def all : List SourceKind := [openApi, swagger, express, jsDoc, python, go, graphQl]

/-- The tag of a kind. -/
def tag : SourceKind → String
  | openApi => "openapi"
  | swagger => "swagger"
  | express => "express"
  | jsDoc => "jsdoc"
  | python => "python"
  | go => "go"
  | graphQl => "graphql"

/-- The kind of a tag; tags are exact. -/
def ofTag? (tag : String) : Option SourceKind := all.find? fun k => k.tag == tag

end SourceKind

/-! ## Readings -/

/-- What a reader found. -/
structure Reading where
  ast : Option Ast
  warnings : List Issue
  errors : List Issue
  /-- Names that the reader itself could not resolve; types are checked later. -/
  brokenReferences : List String
  deriving Inhabited

namespace Reading

/-- A description, with what was noticed. -/
def success (ast : Ast) (warnings : List Issue) : Reading := ⟨some ast, warnings, [], []⟩

/-- A single error. -/
def failure (e : Issue) : Reading := ⟨none, [], [e], []⟩

end Reading

/-- The line of the text that follows `before`, counted from one. -/
def lineAfter (before : List Char) : Nat := before.count '\n' + 1

/-! ## Placeholders of paths -/

/-- The endpoint with a path parameter of a name; one is added if there is none. -/
def addPlaceholder (describe : String → Option String) (e : Endpoint) (name : String) :
    Endpoint :=
  if (e.parameter? name .path).isSome then e
  else
    let p := (Parameter.plain name .path (.primitive "string")).withDescription (describe name)
    { e with parameters := e.parameters ++ [p] }

/-- The endpoint with a parameter for every placeholder of its path that has none. -/
def fillPathParameters (describe : String → Option String) (e : Endpoint) : Endpoint :=
  (pathParameters e.path).foldl (addPlaceholder describe) e

/-! ## Progress -/

/-- A draft and the warnings so far. -/
structure Progress where
  draft : Draft
  warnings : List Issue
  deriving Inhabited

namespace Progress

/-- Nothing but what the settings say. -/
def start (tag : String) (s : Settings) : Progress :=
  ⟨(Draft.start tag).project s.projectName s.projectVersion, []⟩

def warn (p : Progress) (i : Issue) : Progress := { p with warnings := p.warnings ++ [i] }

/-- Completes an endpoint and adds it, unless one of its key is there. -/
def addEndpoint (s : Settings) (line : Nat) (p : Progress) (e : Endpoint) : Progress :=
  let e := s.finish (fillPathParameters (fun _ => none) e)
  let (draft, fresh) := p.draft.addEndpoint e
  let p := { p with draft := draft }
  if fresh then p
  else p.warn ⟨.duplicateEndpoint, "Duplicate endpoint " ++ e.locator, some line⟩

/-- Adds a schema, unless one of its name is there; `what` says what it is declared as. -/
def addSchema (what : String) (line? : Option Nat) (p : Progress) (x : Schema) : Progress :=
  let (draft, fresh) := p.draft.addSchema x
  let p := { p with draft := draft }
  if fresh then p
  else p.warn ⟨.duplicateSchema, s!"Duplicate {what} '{x.name}'", line?⟩

end Progress

end ApiCanon
