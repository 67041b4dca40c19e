import ApiCanon.Diff.Difference
import ApiCanon.Diff.Endpoints
import ApiCanon.Diff.Schemas
import ApiCanon.Model.Ast
import ApiCanon.Model.Encode
import ApiCanon.Text.Blank

/-!
# Comparing two descriptions

Endpoints belong together by verb and path, schemas by name; nothing is taken for renamed.  Each
endpoint and each schema contributes at most one change, and one breaking difference makes the
whole change breaking.

## Order of changes

First the endpoints of the new description in their order, then the endpoints that are gone in
their old order, then the schemas by name.
-/

namespace ApiCanon

open Json (Value)

/-- The kind of a change. -/
inductive ChangeKind where
  | added
  | removed
  | modified
  | breaking
  deriving DecidableEq, Repr, Inhabited

def ChangeKind.text : ChangeKind → String
  | added => "added"
  | removed => "removed"
  | modified => "modified"
  | breaking => "breaking"

/-- A change of an endpoint or a schema. -/
structure Change where
  kind : ChangeKind
  /-- The path of an endpoint, or the locator of a schema. -/
  path : String
  /-- The verb of an endpoint; none for a schema. -/
  method : Option Method
  description : String
  differences : Option (List Difference)
  deriving DecidableEq, Repr, Inhabited

namespace Change

/-- How the changed thing is named in reports. -/
def locator (c : Change) : String :=
  match c.method with
  | some m => m.text ++ " " ++ c.path
  | none => c.path

def isSchemaChange (c : Change) : Bool := c.method.isNone

def toJson (c : Change) : Value :=
  .object <| [("type", .string c.kind.text), ("path", .string c.path)] ++
    textField "method" (c.method.map Method.text) ++ [("description", .string c.description)] ++
    match c.differences with
    | some ds => [("details", .object [("differences", .array (ds.map Difference.toJson))])]
    | none => []

end Change

/-- The changes of a comparison. -/
structure DiffResult where
  changes : List Change
  deriving DecidableEq, Repr, Inhabited

namespace DiffResult

/-- The changes of one kind, in order. -/
def changesOf (r : DiffResult) (k : ChangeKind) : List Change :=
  r.changes.filter fun c => c.kind == k

/-- The number of changes of one kind. -/
def count (r : DiffResult) (k : ChangeKind) : Nat := (r.changesOf k).length

def isEmpty (r : DiffResult) : Bool := r.changes.isEmpty

def hasBreakingChanges (r : DiffResult) : Bool := 0 < r.count .breaking

def toJson (r : DiffResult) : Value :=
  .object [("changes", .array (r.changes.map Change.toJson)),
    ("summary", .object [("totalChanges", .ofNat r.changes.length),
      ("breakingChanges", .ofNat (r.count .breaking)), ("additions", .ofNat (r.count .added)),
      ("removals", .ofNat (r.count .removed)), ("modifications", .ofNat (r.count .modified))])]

end DiffResult

namespace Diff

/-! ## Check -/

/-- The first thing wrong with the endpoints from number `index` on, given the keys before. -/
def endpointFault? (side : Side) (seen : List EndpointKey) (index : Nat) :
    List Endpoint → Option DiffError
  | [] => none
  | e :: r =>
    if Text.isBlankText e.path then some (.emptyPath side index e.method)
    else if seen.contains e.key then some (.duplicateEndpoint side e.locator)
    else endpointFault? side (e.key :: seen) (index + 1) r

/-- The first schema that is stored under another name. -/
def schemaFault? (side : Side) : List (String × Schema) → Option DiffError
  | [] => none
  | (k, s) :: r => if k = s.name then schemaFault? side r
    else some (.schemaNameMismatch side k s.name)

/-- The first thing wrong with a description. -/
def fault? (side : Side) (a : Ast) : Option DiffError :=
  endpointFault? side [] 0 a.endpoints <|> schemaFault? side a.schemas.entries

/-! ## Changes -/

/-- At most one change for a list of differences.  Its text tells the breaking ones if there are
any. -/
def rollup (make : ChangeKind → String → List Difference → Change) (ds : List Difference) :
    Option Change :=
  if ds.isEmpty then none
  else
    let breaking := ds.filter (·.breaking)
    if breaking.isEmpty then
      some (make .modified ("; ".intercalate (ds.map (·.message))) ds)
    else some (make .breaking ("; ".intercalate (breaking.map (·.message))) ds)

/-- The difference that a narrowed schema makes for an endpoint that reaches it. -/
def narrowedDifference (name : String) : Difference :=
  .breakingIn "schema" s!"referenced schema '{name}' was narrowed"

/-- All differences of an endpoint: its own, and the narrowed schemas that it reaches. -/
def endpointDifferences (o : DiffOptions) (schemas : SortedMap Schema) (narrowed : List String)
    (old new : Endpoint) : List Difference :=
  compareEndpoints o old new ++
    ((reachableSchemas old schemas).filter narrowed.contains).map narrowedDifference

/-- The change of an endpoint of the new description. -/
def endpointChange? (o : DiffOptions) (old : Ast) (narrowed : List String) (e : Endpoint) :
    Option Change :=
  match old.endpoints.find? fun p => p.key == e.key with
  | none => some ⟨.added, e.path, some e.method, s!"endpoint {e.locator} added", none⟩
  | some p => rollup (fun k text ds => ⟨k, e.path, some e.method, text, some ds⟩)
      (endpointDifferences o old.schemas narrowed p e)

/-- The change of an endpoint of the old description that is gone. -/
def removal? (new : Ast) (e : Endpoint) : Option Change :=
  if new.endpoints.any fun p => p.key == e.key then none
  else some ⟨.removed, e.path, some e.method, s!"endpoint {e.locator} removed", none⟩

/-- How a schema is named in reports. -/
def schemaLocator (name : String) : String := "#/schemas/" ++ name

/-- The change of the schema of a name. -/
def schemaChange? (o : DiffOptions) (old new : SortedMap Schema) (name : String) :
    Option Change :=
  match old.get? name, new.get? name with
  | none, some _ => some ⟨.added, schemaLocator name, none, s!"schema '{name}' added", none⟩
  | some _, none => some ⟨.removed, schemaLocator name, none, s!"schema '{name}' removed", none⟩
  | some a, some b => rollup (fun k text ds => ⟨k, schemaLocator name, none, text, some ds⟩)
      (compareSchemas o a b)
  | none, none => none

/-- The changes of the schemas by name. -/
def schemaChanges (o : DiffOptions) (old new : SortedMap Schema) : List Change :=
  (sortedNames (old.keys ++ new.keys)).filterMap (schemaChange? o old new)

/-- The changes between two descriptions that have passed the check. -/
def changes (o : DiffOptions) (old new : Ast) : List Change :=
  new.endpoints.filterMap (endpointChange? o old (narrowedSchemas old.schemas new.schemas)) ++
    old.endpoints.filterMap (removal? new) ++
    if o.includeSchemas then schemaChanges o old.schemas new.schemas else []

end Diff

/-- Compares two descriptions.  The old one is checked first. -/
def diff (o : DiffOptions) (old new : Ast) : Except DiffError DiffResult :=
  match Diff.fault? .old old <|> Diff.fault? .new new with
  | some e => .error e
  | none => .ok ⟨Diff.changes o old new⟩

end ApiCanon
