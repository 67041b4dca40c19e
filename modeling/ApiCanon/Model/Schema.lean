import ApiCanon.Collection.SortedMap

/-!
# Types and schemas

A type is a named schema, a primitive, or a list of either; only names take part in reference
resolution.  A schema is a record of properties or a choice among texts.
-/

namespace ApiCanon

/-- A reference to a type. -/
inductive TypeRef where
  | named (name : String)
  | primitive (name : String)
  | array (items : TypeRef)
  deriving DecidableEq, Repr, Inhabited

namespace TypeRef

/-- The type of a value of which the source says nothing. -/
def any : TypeRef := primitive "any"

/-- The schema that a type refers to, through lists. -/
def referencedName? : TypeRef → Option String
  | named n => some n
  | primitive _ => none
  | array t => t.referencedName?

def isArray : TypeRef → Bool
  | array _ => true
  | _ => false

/-- The text of a type: a pair of brackets behind the name for each list. -/
def text : TypeRef → String
  | named n => n
  | primitive n => n
  | array t => t.text ++ "[]"

/-- A type inside of `n` lists. -/
def nested : Nat → TypeRef → TypeRef
  | 0, t => t
  | n + 1, t => array (nested n t)

end TypeRef

/-- A description, unless it is empty. -/
def nonEmpty (d : Option String) : Option String := d.filter fun s => !s.isEmpty

/-- A property of a schema. -/
structure Property where
  type : TypeRef
  description : Option String
  required : Bool
  deriving DecidableEq, Repr, Inhabited

/-- A property without a description. -/
def Property.plain (type : TypeRef) (required : Bool) : Property := ⟨type, none, required⟩

/-- A data shape with a name. -/
structure Schema where
  name : String
  description : Option String
  properties : SortedMap Property
  /-- The texts a value may be, in the order of the source; none for a record. -/
  enumValues : List String
  deriving DecidableEq, Repr, Inhabited

namespace Schema

/-- A schema with nothing but its name. -/
def named (name : String) : Schema := ⟨name, none, .empty, []⟩

def isEnum (s : Schema) : Bool := !s.enumValues.isEmpty

/-- The schemas that the properties refer to. -/
def referencedNames (s : Schema) : List String :=
  s.properties.values.filterMap fun p => p.type.referencedName?

end Schema

end ApiCanon
