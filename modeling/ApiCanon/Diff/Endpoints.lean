import ApiCanon.Diff.Difference
import ApiCanon.Model.Endpoint

/-!
# Comparing endpoints

Two endpoints of one key, field by field.  Parameters belong together when they agree in name
and place; an old parameter without such a counterpart may have moved to another place, to one
that no parameter has been matched with before.

## What breaks

A parameter or a response that is gone, a changed type or place, anything that has become
required, and a changed media type of the body.  A body that is gone breaks nothing.
-/

namespace ApiCanon.Diff

open Difference (breakingIn harmlessIn)

/-! ## Parameters -/

/-- The place of the first parameter with the same name and location. -/
def exactMatch? (new : List Parameter) (p : Parameter) : Option Nat :=
  new.findIdx? fun q => q.name == p.name && q.location == p.location

/-- The place of the first parameter of the same name elsewhere that is not taken. -/
def movedMatch? (new : List Parameter) (taken : List Nat) (p : Parameter) : Option Nat :=
  (List.range new.length).find? fun i =>
    match new[i]? with
    | some q => q.name == p.name && q.location != p.location && !taken.contains i
    | none => false

/-- The counterpart of an old parameter. -/
def counterpart? (new : List Parameter) (taken : List Nat) (p : Parameter) : Option Nat :=
  exactMatch? new p <|> movedMatch? new taken p

/-- The old parameters with their counterparts, found from the first on. -/
def pairParameters (new : List Parameter) (taken : List Nat) :
    List Parameter → List (Parameter × Option Nat)
  | [] => []
  | p :: r =>
    match counterpart? new taken p with
    | some i => (p, some i) :: pairParameters new (i :: taken) r
    | none => (p, none) :: pairParameters new taken r

/-- Name and place of a parameter in messages. -/
def parameterLabel (p : Parameter) : String := s!"parameter '{p.name}' ({p.location.text})"

/-- The differences of two parameters that belong together. -/
def compareParameter (o : DiffOptions) (old new : Parameter) : List Difference :=
  let label := parameterLabel new
  reportIf (old.location != new.location) (breakingIn "parameter"
      s!"parameter '{old.name}' moved from {old.location.text} to {new.location.text}") ++
    reportIf (!old.required && new.required)
      (breakingIn "parameter" s!"{label} is now required") ++
    reportIf (old.required && !new.required)
      (harmlessIn "parameter" s!"{label} is now optional") ++
    reportIf (old.schema != new.schema) (breakingIn "parameter"
      s!"{label} type changed from {old.schema.text} to {new.schema.text}") ++
    reportIf (!o.ignoreDescriptions && old.description != new.description)
      (harmlessIn "parameter" s!"{label} description changed")

/-- The differences of an old parameter and what has become of it. -/
def compareOldParameter (o : DiffOptions) (new : List Parameter) :
    Parameter × Option Nat → List Difference
  | (p, none) => [breakingIn "parameter" s!"{parameterLabel p} removed"]
  | (p, some i) =>
    match new[i]? with
    | some q => compareParameter o p q
    | none => []

/-- The difference that a new parameter without a counterpart makes. -/
def addedParameter (p : Parameter) : Difference :=
  if p.required then breakingIn "parameter" s!"new required {parameterLabel p} added"
  else harmlessIn "parameter" s!"optional {parameterLabel p} added"

/-- The parameters at places that are not taken; `index` is the place of the first. -/
def untaken (taken : List Nat) (index : Nat) : List Parameter → List Parameter
  | [] => []
  | p :: r => if taken.contains index then untaken taken (index + 1) r
    else p :: untaken taken (index + 1) r

/-- The differences of two lists of parameters. -/
def compareParameters (o : DiffOptions) (old new : List Parameter) : List Difference :=
  let pairs := pairParameters new [] old
  pairs.flatMap (compareOldParameter o new) ++
    (untaken (pairs.filterMap (·.2)) 0 new).map addedParameter

/-! ## Bodies -/

/-- The differences of two bodies. -/
def compareBodies (o : DiffOptions) (old new : RequestBody) : List Difference :=
  reportIf (!old.required && new.required)
      (breakingIn "requestBody" "request body is now required") ++
    reportIf (old.required && !new.required)
      (harmlessIn "requestBody" "request body is now optional") ++
    reportIf (old.schema != new.schema) (breakingIn "requestBody"
      s!"request body type changed from {old.schema.text} to {new.schema.text}") ++
    reportIf (old.contentType != new.contentType) (breakingIn "requestBody"
      s!"request body content type changed from {old.contentType} to {new.contentType}") ++
    reportIf (!o.ignoreDescriptions && old.description != new.description)
      (harmlessIn "requestBody" "request body description changed")

/-- The differences of the bodies of two endpoints, each of which may be absent. -/
def compareRequestBody (o : DiffOptions) : Option RequestBody → Option RequestBody →
    List Difference
  | none, none => []
  | none, some b =>
    if b.required then [breakingIn "requestBody" s!"required request body ({b.schema.text}) added"]
    else [harmlessIn "requestBody" s!"optional request body ({b.schema.text}) added"]
  | some _, none => [harmlessIn "requestBody" "request body removed"]
  | some a, some b => compareBodies o a b

/-! ## Responses -/

/-- The differences of the types of two responses of one status. -/
def compareResponseTypes (status : String) : Option TypeRef → Option TypeRef → List Difference
  | some a, some b => reportIf (a != b)
      (breakingIn "response" s!"response {status} type changed from {a.text} to {b.text}")
  | some a, none => [breakingIn "response" s!"response {status} no longer returns {a.text}"]
  | none, some b => [harmlessIn "response" s!"response {status} now returns {b.text}"]
  | none, none => []

/-- Whether two examples, each of which may be absent, are the same document. -/
def sameExample : Option Json.Value → Option Json.Value → Bool
  | some v, some w => v.same w
  | none, none => true
  | _, _ => false

/-- The differences of two responses of one status. -/
def compareResponse (o : DiffOptions) (old new : Response) : List Difference :=
  compareResponseTypes old.status old.schema new.schema ++
    reportIf (!sameExample old.example? new.example?)
      (harmlessIn "response" s!"response {old.status} example changed") ++
    reportIf (!o.ignoreDescriptions && old.description != new.description)
      (harmlessIn "response" s!"response {old.status} description changed")

/-- The differences of an old response and the first new one of its status. -/
def compareOldResponse (o : DiffOptions) (new : List Response) (r : Response) :
    List Difference :=
  match new.find? fun n => n.status == r.status with
  | none => [breakingIn "response" s!"response {r.status} removed"]
  | some n => compareResponse o r n

/-- The differences of two lists of responses. -/
def compareResponses (o : DiffOptions) (old new : List Response) : List Difference :=
  old.flatMap (compareOldResponse o new) ++
    (new.filter fun r => !old.any fun n => n.status == r.status).map fun r =>
      harmlessIn "response" s!"response {r.status} added"

/-! ## Endpoints -/

/-- A text that may be absent, in messages. -/
def shownOption (s : Option String) : String := s.getD "(none)"

/-- The differences of two endpoints. -/
def compareEndpoints (o : DiffOptions) (old new : Endpoint) : List Difference :=
  reportIf (!o.ignoreDescriptions && old.summary != new.summary)
      (harmlessIn "summary" "summary changed") ++
    reportIf (!o.ignoreDescriptions && old.description != new.description)
      (harmlessIn "description" "description changed") ++
    reportIf (old.operationId != new.operationId) (harmlessIn "operationId"
      ("operation id changed from " ++ shownOption old.operationId ++ " to " ++
        shownOption new.operationId)) ++
    compareParameters o old.parameters new.parameters ++
    compareRequestBody o old.requestBody new.requestBody ++
    compareResponses o old.responses new.responses ++
    reportIf (old.tags != new.tags) (harmlessIn "tags"
      ("tags changed from [" ++ ", ".intercalate old.tags ++ "] to [" ++
        ", ".intercalate new.tags ++ "]")) ++
    reportIf (old.deprecated != new.deprecated) (harmlessIn "deprecated"
      (if new.deprecated then "endpoint marked deprecated"
        else "endpoint no longer deprecated"))

end ApiCanon.Diff
