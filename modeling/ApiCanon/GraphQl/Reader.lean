import ApiCanon.GraphQl.Definition
import ApiCanon.Source.Reading
import ApiCanon.Source.TypeName

/-!
# Reading schema documents

The fields of the root types become endpoints whose path is the name of the field, all other
types become schemas.  Which types are roots is told by the last schema block, or by custom.

## Duplicates

An extension adds its fields to the type that it extends.  A second type of one name is dropped
with a warning, and so is a second endpoint of one verb and name.
-/

namespace ApiCanon.GraphQl

/-- The root types with the verbs of their fields; of two entries for one type the later
counts. -/
abbrev Roots := List (String × Method)

/-- The root types without a schema block. -/
def customaryRoots : Roots :=
  [("Query", .query), ("Mutation", .mutation), ("Subscription", .subscription)]

/-- The verb of an operation of a schema block. -/
def operationVerb : String → Method
  | "query" => .query
  | "mutation" => .mutation
  | _ => .subscription

/-- The root types of a document. -/
def rootsOf (ds : List Definition) : Roots :=
  ds.foldl (fun roots d =>
    match d with
    | .roots entries =>
      (entries.map fun (operation, type) => (type, operationVerb operation)).reverse
    | _ => roots) customaryRoots

/-- The custom scalars of a document. -/
def scalarsOf (ds : List Definition) : List String :=
  ds.filterMap fun d =>
    match d with
    | .scalar n => some n
    | _ => none

/-- The type that a written type stands for; a custom scalar is a text. -/
def typeRefOf (scalars : List String) : TypeExpr → TypeRef
  | .nonNull t => typeRefOf scalars t
  | .list t => .array (typeRefOf scalars t)
  | .named n =>
    match primitiveOf? n with
    | some p => .primitive p
    | none => if scalars.contains n then .primitive "string" else .named n

/-- A text on one line. -/
def onOneLine (s : List Char) : String :=
  String.ofList (s.map fun c => if c = '\n' then ' ' else c)

/-- Splits a description at its first empty line into a summary and the rest. -/
def splitDescription (d : Option String) : Option String × Option String :=
  match d with
  | none => (none, none)
  | some text =>
    match Text.splitFirst? ['\n', '\n'] text.toList with
    | some (summary, rest) =>
      (some (onOneLine summary), nonEmpty (some (String.ofList (Text.trim rest))))
    | none => (some (onOneLine text.toList), none)

/-- The parameter that an argument stands for. -/
def argumentParameter (scalars : List String) (a : Argument) : Parameter :=
  ((Parameter.plain a.name .body (typeRefOf scalars a.type)).withRequired
    a.type.isNonNull).withDescription a.description

/-- The endpoint that a field of a root type stands for. -/
def fieldEndpoint (scalars : List String) (m : Method) (f : Field) : Endpoint :=
  let (summary, description) := splitDescription f.description
  { Endpoint.plain m f.name with
    summary := summary
    description := description
    deprecated := f.deprecated
    parameters := f.arguments.map (argumentParameter scalars)
    responses := [{ Response.plain "200" with schema := some (typeRefOf scalars f.type) }] }

/-- The schema of a type with fields. -/
def objectSchema (scalars : List String) (name : String) (description : Option String)
    (fields : List Field) : Schema where
  name := name
  description := nonEmpty description
  properties := .ofList (fields.map fun f =>
    (f.name, ⟨typeRefOf scalars f.type, nonEmpty f.description, f.type.isNonNull⟩))
  enumValues := []

/-- What has been made of the definitions so far. -/
structure Progress where
  draft : Draft
  schemas : List Schema
  warnings : List Issue

/-- Adds the endpoint of a field of a root type. -/
def Progress.addField (s : Settings) (scalars : List String) (m : Method) (p : Progress)
    (f : Field) : Progress :=
  let e := s.finish (fieldEndpoint scalars m f)
  let (draft, fresh) := p.draft.addEndpoint e
  { p with
    draft := draft
    warnings := if fresh then p.warnings
      else p.warnings ++ [⟨.duplicateEndpoint, "Duplicate root field " ++ e.locator, some f.line⟩] }

/-- Adds the properties of a schema to the first of its name. -/
def extendSchema (x : Schema) : List Schema → List Schema
  | [] => []
  | s :: r =>
    if s.name = x.name then
      { s with properties :=
          x.properties.entries.foldl (fun m (k, v) => m.insert k v) s.properties } :: r
    else s :: extendSchema x r

/-- Adds a type with fields that is not a root. -/
def Progress.addObject (p : Progress) (x : Schema) (extension : Bool) (line : Nat) : Progress :=
  if p.schemas.any fun s => s.name == x.name then
    if extension then { p with schemas := extendSchema x p.schemas }
    else
      { p with
        warnings := p.warnings ++ [⟨.duplicateSchema, s!"Duplicate type '{x.name}'", some line⟩] }
  else { p with schemas := p.schemas ++ [x] }

/-- Adds a definition. -/
def Progress.add (s : Settings) (roots : Roots) (scalars : List String) (p : Progress) :
    Definition → Progress
  | .object kind name description fields extension line =>
    match if kind = .type then roots.lookup name else none with
    | some m => fields.foldl (Progress.addField s scalars m) p
    | none => p.addObject (objectSchema scalars name description fields) extension line
  | .enum name description values =>
    { p with schemas := p.schemas ++
        [{ Schema.named name with description := nonEmpty description, enumValues := values }] }
  | .union name description =>
    { p with schemas := p.schemas ++
        [{ Schema.named name with description := nonEmpty description }] }
  | .scalar _ => p
  | .roots _ => p

/-- Puts the collected schemas into the draft. -/
def Progress.addSchemas (p : Progress) : Draft × List Issue :=
  p.schemas.foldl (fun (d, warnings) x =>
    let (d, fresh) := d.addSchema x
    (d, if fresh then warnings
      else warnings ++ [.general .duplicateSchema s!"Duplicate type '{x.name}'"]))
    (p.draft, p.warnings)

/-- Reads a document. -/
def read (text : List Char) (s : Settings) : Reading :=
  match document text with
  | .error e => .failure e
  | .ok ds =>
    let start := (Draft.start SourceKind.graphQl.tag).project s.projectName s.projectVersion
    let p := ds.foldl (Progress.add s (rootsOf ds) (scalarsOf ds)) ⟨start, [], []⟩
    let (d, warnings) := p.addSchemas
    .success d.ast warnings

/-- The errors of a document. -/
def check (text : List Char) : List Issue :=
  match document text with
  | .ok _ => []
  | .error e => [e]

end ApiCanon.GraphQl
