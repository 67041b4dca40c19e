import ApiCanon.Model.Endpoint

/-!
# Settings of a reading

The keys of a configuration that every reader understands.  Values of another kind than text
count as absent, and the whole configuration is kept as it was given.
-/

namespace ApiCanon

open Json (Value)

/-- What a configuration says to a reader. -/
structure Settings where
  projectName : Option String
  projectVersion : Option String
  /-- The tag of endpoints that have none of their own. -/
  defaultTag : Option String
  raw : Value
  deriving Inhabited

namespace Settings

/-- Reads a configuration; a missing one is null. -/
def ofConfig (config : Option Value) : Settings :=
  let raw := config.getD .null
  ⟨raw.stringField? "projectName", raw.stringField? "projectVersion",
    raw.stringField? "defaultTag", raw⟩

/-- Gives an endpoint without tags the default tag. -/
def finish (s : Settings) (e : Endpoint) : Endpoint :=
  match s.defaultTag with
  | some t => if e.tags.isEmpty then { e with tags := [t] } else e
  | none => e

end Settings

end ApiCanon
