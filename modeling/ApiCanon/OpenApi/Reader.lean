import ApiCanon.Json.Reader
import ApiCanon.OpenApi.Operations
import ApiCanon.Source.Reading
import ApiCanon.Yaml.Document

/-!
# Reading API documents

A document is JSON if it begins with a brace, else YAML.  Every operation of every path becomes
an endpoint and every definition a schema.  A document without paths is accepted with a warning.
-/

namespace ApiCanon.OpenApi

open Json (Value Fields)

/-- The value of a document. -/
def load (text : List Char) : Except Issue Value :=
  match Text.trimLeft text with
  | '\x7b' :: _ =>
    match Json.read text with
    | .ok v => .ok v
    | .error e => .error (.parseErrorAt e.position.line ("Invalid JSON: " ++ e.message))
  | _ =>
    match Yaml.read text with
    | .ok v => .ok v
    | .error e => .error ⟨.parseError, "Invalid YAML: " ++ e.message, e.line?⟩

/-- A document with its generation. -/
def open? (text : List Char) : Except Issue (Value × Version) := do
  let doc ← load text
  match versionOf doc with
  | .ok v => pure (doc, v)
  | .error e => .error (.parseError e.message)

/-- What has been built of a document, and the findings so far. -/
structure Progress where
  draft : Draft
  warnings : List Issue
  dangling : List String

/-- Adds an endpoint; a second one of the same key is only a warning. -/
def Progress.add (s : Settings) (p : Progress) (b : Built Endpoint) : Progress :=
  let e := s.finish b.value
  let (draft, fresh) := p.draft.addEndpoint e
  ⟨draft,
    if fresh then p.warnings
    else p.warnings ++ [.general .duplicateEndpoint ("Duplicate endpoint " ++ e.locator)],
    p.dangling ++ b.dangling⟩

/-- Adds the operations of a path. -/
def Progress.addPath (doc : Value) (v : Version) (s : Settings) (p : Progress) :
    String × Value → Progress
  | (path, item) =>
    if path.isEmpty then
      { p with warnings := p.warnings ++ [.general .ambiguous "Skipped empty path key"] }
    else match item with
      | .object f => (pathOperations doc v path f).foldl (Progress.add s) p
      | _ => p

/-- The description before its paths are read: project, servers and schemas. -/
def preamble (kind : SourceKind) (doc : Value) (v : Version) (s : Settings) : Draft :=
  let info := (doc.get? "info").getD .null
  let d := (Draft.start kind.tag).project (info.stringField? "title")
    ((info.get? "version").bind versionText?)
  let d := (d.project s.projectName s.projectVersion).extra "specVersion" (.string v.label)
  let d := match servers? doc v with
    | some urls => d.extra "servers" urls
    | none => d
  (definitions doc v).foldl (fun d (name, raw) => (d.addSchema (buildSchema name raw)).1) d

/-- The warning about a reference that leads nowhere. -/
def danglingWarning (reference : String) : Issue :=
  .general .unresolvedReference s!"Unresolved reference '{reference}'"

/-- Reads a document. -/
def read (kind : SourceKind) (text : List Char) (s : Settings) : Reading :=
  match open? text with
  | .error e => .failure e
  | .ok (doc, v) =>
    let d := preamble kind doc v s
    match (doc.get? "paths").bind Value.asObject? with
    | none => .success d.ast [.general .ambiguous "Document has no 'paths' object"]
    | some paths =>
      let p := paths.foldl (Progress.addPath doc v s) ⟨d, [], []⟩
      let dangling := sortedNames p.dangling
      { Reading.success p.draft.ast (p.warnings ++ dangling.map danglingWarning) with
        brokenReferences := dangling.map referenceName }

/-- The errors of a document, found without building a description. -/
def check (text : List Char) : List Issue :=
  match open? text with
  | .ok _ => []
  | .error e => [e]

end ApiCanon.OpenApi
