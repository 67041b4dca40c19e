import ApiCanon.Model.Schema
import ApiCanon.Python.Docstring
import ApiCanon.Python.Program
import ApiCanon.Python.Route
import ApiCanon.Source.Reading

/-!
# Reading Python

The classes that are models are schemas, and the functions with routes are endpoints.

A class is a model if it derives from `BaseModel` or from a model further up, and an enumeration if
it derives from one of those.  Models have a property for each field with a type; enumerations
have the values of their members.
-/

namespace ApiCanon.Python

/-! ## Models and enumerations -/

/-- The schemas found so far, with the names of the classes. -/
structure Models where
  schemas : List Schema
  models : List String
  enums : List String

/-- A field of a class. -/
structure Field where
  name : String
  annotation? : Option String
  value? : Option Expr

/-- The field that a statement of a class declares.  Names that begin with an underscore are
private. -/
def field? : Stmt → Option Field
  | .assignment (some name) annotation? value? =>
    if name.startsWith "_" || name == "model_config" then none
    else some ⟨name, annotation?, value?⟩
  | _ => none

/-- The property of a field with a type. -/
def Field.property? (f : Field) : Option (String × Property) := do
  let annotation ← f.annotation?
  let (type, nullable) := typeOf annotation
  let marker? := f.value?.bind call?
  let filled := match marker? with
    | some c => if c.shortName == "Field" then !c.leavesRequired else true
    | none => f.value?.isSome
  pure (f.name,
    ⟨type, nonEmpty (marker?.bind fun c => c.keywordString? "description"), !nullable && !filled⟩)

/-- The value of a member of an enumeration: its text, or else its name. -/
def Field.member (f : Field) : String := (f.value?.bind stringValue?).getD f.name

/-- The description of a class. -/
def classDescription (body : List Stmt) : Option String := do
  let doc := Docstring.ofText (← docstring? body)
  let summary ← doc.summary
  match doc.description with
  | some rest => some (summary ++ "\n\n" ++ rest)
  | none => some summary

/-- The schema of a class. -/
def classSchema (isEnum : Bool) (name : String) (body : List Stmt) : Schema :=
  let fields := body.filterMap field?
  { name := name
    description := nonEmpty (classDescription body)
    properties := if isEnum then .empty else .ofList (fields.filterMap Field.property?)
    enumValues := if isEnum then fields.map Field.member else [] }

namespace Models

/-- Adds the schema of a statement, if it is a class that has one. -/
def add (m : Models) : Stmt → Models
  | .classDef name bases body =>
    let bases := bases.map fun b => String.ofList (afterLastPoint b.toList)
    if bases.any fun b => ["Enum", "StrEnum", "IntEnum"].contains b || m.enums.contains b then
      ⟨m.schemas ++ [classSchema true name body], m.models, name :: m.enums⟩
    else if bases.any fun b => b == "BaseModel" || m.models.contains b then
      ⟨m.schemas ++ [classSchema false name body], name :: m.models, m.enums⟩
    else m
  | _ => m

end Models

/-- The schemas of a program, in its order. -/
def schemasOf (program : List Stmt) : List Schema :=
  ((allOf program).foldl Models.add ⟨[], [], []⟩).schemas

/-! ## Sources -/

/-- The error of a text that is no program. -/
def SyntaxError.issue (e : SyntaxError) : Issue := .parseErrorAt e.line "Python syntax error"

/-- Warns of a declaration without a verb that is known. -/
def warnUseless (p : Progress) (d : Declaration) : Progress :=
  if d.methods.isEmpty then
    p.warn ⟨.ambiguous, s!"No usable methods for {d.path}", some d.line⟩
  else p

/-- Reads a source. -/
def read (parse : Parser) (text : List Char) (s : Settings) : Reading :=
  match parse text with
  | .error e => .failure e.issue
  | .ok statements =>
    let p := (schemasOf statements).foldl (Progress.addSchema "model" none)
      (.start SourceKind.python.tag s)
    let found := declarations statements
    let p := (found.map (·.1)).foldl warnUseless p
    let p := found.foldl (fun p (d, es) => es.foldl (Progress.addEndpoint s d.line) p) p
    .success p.draft.ast p.warnings

/-- The errors of a source. -/
def check (parse : Parser) (text : List Char) : List Issue :=
  match parse text with
  | .ok _ => []
  | .error e => [e.issue]

end ApiCanon.Python
