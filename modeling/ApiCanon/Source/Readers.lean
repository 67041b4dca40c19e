import ApiCanon.DocComment.Reader
import ApiCanon.Express.Reader
import ApiCanon.Go.Grammar
import ApiCanon.Go.Reader
import ApiCanon.GraphQl.Reader
import ApiCanon.OpenApi.Reader
import ApiCanon.Python.Grammar
import ApiCanon.Python.Reader
import ApiCanon.Source.Reading
import ApiCanon.Source.Request

/-!
# Registry of readers

The reader of each kind of source, and which reader is in charge of which tag.  A request always has
a result: an unknown tag, contents that are not there and contents that are not text are errors like
any other.  A successful reading is completed here, in the same way for all kinds of sources:
references without a schema are reported and mark the description as unresolved.

Which texts are programs is not for the readers to say: the parsers of Python and of Go are
parameters (`Grammars`), and what is shown of the readers holds for any two parsers.
-/

namespace ApiCanon

/-- The parsers of programs that the readers rest on. -/
class Grammars where
  python : Python.Parser
  go : Go.Parser

/-- The grammars of this library. -/
instance : Grammars := ⟨Python.program, Go.outline⟩

namespace SourceKind

variable [Grammars]

/-- Reads the text of a source. -/
def read (k : SourceKind) (text : List Char) (s : Settings) : Reading :=
  match k with
  | openApi | swagger => OpenApi.read k text s
  | express => Express.read text s
  | jsDoc => DocComment.read text s
  | python => Python.read Grammars.python text s
  | go => Go.read Grammars.go text s
  | graphQl => GraphQl.read text s

/-- The errors of a source. -/
def check (k : SourceKind) (text : List Char) : List Issue :=
  match k with
  | openApi | swagger => OpenApi.check text
  | express => Express.check text
  | jsDoc => DocComment.check text
  | python => Python.check Grammars.python text
  | go => Go.check Grammars.go text
  | graphQl => GraphQl.check text

/-- What a kind of source is called, and the usual ends of its file names. -/
structure Capabilities where
  name : String
  extensions : List String
  extractsSchemas : Bool
  deriving DecidableEq, Repr

/-- What is known of each kind of source. -/
def capabilities : SourceKind → Capabilities
  | openApi => ⟨"OpenAPI 3.x", ["json", "yaml", "yml"], true⟩
  | swagger => ⟨"Swagger 2.0", ["json", "yaml", "yml"], true⟩
  | express => ⟨"Express", ["js", "mjs", "cjs", "ts"], true⟩
  | jsDoc => ⟨"JSDoc", ["js", "mjs", "cjs", "ts", "jsx", "tsx"], true⟩
  | python => ⟨"Python (FastAPI/Flask)", ["py"], true⟩
  | go => ⟨"Go (swag annotations)", ["go"], true⟩
  | graphQl => ⟨"GraphQL SDL", ["graphql", "graphqls", "gql"], true⟩

end SourceKind

/-- The parsers of programs, and the readers by tag. -/
structure Registry where
  grammars : Grammars
  readers : SortedMap SourceKind

namespace Registry

def empty [g : Grammars] : Registry := ⟨g, .empty⟩

/-- Puts a reader in charge of a tag. -/
def register (r : Registry) (tag : String) (k : SourceKind) : Registry :=
  { r with readers := r.readers.insert tag k }

/-- Every reader under its own tag. -/
def defaults [Grammars] : Registry := SourceKind.all.foldl (fun r k => r.register k.tag k) empty

def tags (r : Registry) : List String := r.readers.keys

def supports (r : Registry) (tag : String) : Bool := r.readers.contains tag

/-! ## Contents -/

/-- The text of a source. -/
def textOf (s : Source) : Except Issue (List Char) :=
  match s.bytes? with
  | none => .error (.general .sourceUnavailable
      ("Source content not loaded: " ++ s.origin?.getD ""))
  | some b =>
    match Bytes.decode b with
    | .ok t => .ok t
    | .error e => .error (.parseError ("Source is not valid UTF-8: " ++ e.message))

/-- The complaint about a tag that nobody is in charge of. -/
def unsupported (tag : String) : Issue :=
  .general .unsupportedSourceType ("Unsupported source type: " ++ tag)

/-! ## Completion -/

/-- The warning about a reference without a schema. -/
def unresolvedWarning (name : String) : Issue :=
  .general .unresolvedReference s!"Reference to undefined schema '{name}'"

/-- Completes a description: its broken references, the warnings about them, and the moment of
reading. -/
def complete (now : Timestamp) (a : Ast) (warnings : List Issue) (reported : List String) :
    Ast × List String × List Issue :=
  let broken := a.unresolvedNames
  let all := sortedNames (broken ++ reported)
  ((a.markUnresolved (!all.isEmpty)).stamp now, all, warnings ++ broken.map unresolvedWarning)

/-- The result of a request from what the reader found. -/
def finish (now : Timestamp) (q : ReadRequest) (r : Reading) : ReadResult :=
  match r.ast, r.errors with
  | some a, [] =>
    let (a, broken, warnings) := complete now a r.warnings r.brokenReferences
    ⟨q.tag, q.source.origin?, some a, warnings, [], broken, true⟩
  | _, errors =>
    let errors := if errors.isEmpty then [.parseError "Parser produced no AST"] else errors
    ⟨q.tag, q.source.origin?, none, r.warnings, errors, [], false⟩

/-! ## Requests -/

/-- Answers a request at a moment. -/
def read (r : Registry) (now : Timestamp) (q : ReadRequest) : ReadResult :=
  letI := r.grammars
  match r.readers.get? q.tag with
  | none => .failed q (unsupported q.tag)
  | some k =>
    match textOf q.source with
    | .error e => .failed q e
    | .ok text => finish now q (k.read text (.ofConfig q.config))

/-- Answers several requests, each for itself. -/
def readMany (r : Registry) (now : Timestamp) (qs : List ReadRequest) : List ReadResult :=
  qs.map (r.read now)

/-- The errors of the source of a request. -/
def check (r : Registry) (q : ReadRequest) : List Issue :=
  letI := r.grammars
  match r.readers.get? q.tag with
  | none => [unsupported q.tag]
  | some k =>
    match textOf q.source with
    | .error e => [e]
    | .ok text => k.check text

end Registry

end ApiCanon
