import ApiCanon.Source.TypeName
import ApiCanon.Text.Search

/-!
# Types of Python

The types that annotations name: names, perhaps of a module, lists and maps with their items in
square brackets, and the spellings of what may be absent.
-/

namespace ApiCanon.Python

/-! ## Brackets -/

/-- Whether a character opens brackets, and whether it closes them. -/
def isOpening (c : Char) : Bool := c == '[' || c == '(' || c == '\x7b'

def isClosing (c : Char) : Bool := c == ']' || c == ')' || c == '\x7d'

/-- Splits at a separator outside of brackets; `depth` counts the open ones, and `piece` is the
piece under way, reversed. -/
def splitOutsideFrom (sep : Char) (depth : Int) (piece : List Char) :
    List Char → List (List Char)
  | [] => [Text.trim piece.reverse]
  | c :: r =>
    if isOpening c then splitOutsideFrom sep (depth + 1) (c :: piece) r
    else if isClosing c then splitOutsideFrom sep (depth - 1) (c :: piece) r
    else if c == sep && depth == 0 then
      Text.trim piece.reverse :: splitOutsideFrom sep depth [] r
    else splitOutsideFrom sep depth (c :: piece) r

/-- The trimmed pieces between the separators outside of brackets. -/
def splitOutside (sep : Char) (s : List Char) : List (List Char) := splitOutsideFrom sep 0 [] s

/-- A name and what stands in square brackets behind it, up to the end. -/
def subscript? (s : List Char) : Option (List Char × List Char) := do
  let (head, rest) ← Text.splitAtFirst? (· == '[') s
  let inside ← Text.stripSuffix? [']'] rest
  pure (Text.trim head, inside)

/-- What stands behind the last point; all of it without one. -/
def afterLastPoint (s : List Char) : List Char :=
  match Text.splitAtLast? (· == '.') s with
  | some (_, name) => name
  | none => s

/-! ## Types -/

/-- A text without the quotes at its ends. -/
def unquote (s : List Char) : List Char :=
  let isQuote (c : Char) : Bool := c == '"' || c == '\''
  Text.dropRightWhile isQuote (s.dropWhile isQuote)

/-- The members of a union other than `None`. -/
def present (members : List (List Char)) : List (List Char) :=
  members.filter (· != "None".toList)

/-- The type of a name. -/
def typeOfName (s : List Char) : TypeRef :=
  match String.ofList (afterLastPoint s) with
  | "List" | "list" => .array .any
  | "UploadFile" => .primitive "binary"
  | name => typeRefFor name

section Parts

/-! Types whose parts are read by `typeAt`. -/

variable (typeAt : List Char → TypeRef × Bool)

/-- The type of a union: that of its only member other than `None`. -/
def typeOfUnion (members : List (List Char)) : TypeRef :=
  match present members with
  | [m] => (typeAt m).1
  | _ => .any

/-- The type of a name with arguments in square brackets, and whether it admits that there is no
value. -/
def typeOfSubscript (head inside : List Char) : TypeRef × Bool :=
  let arguments := splitOutside ',' inside
  match String.ofList (afterLastPoint head) with
  | "Optional" => ((typeAt inside).1, true)
  | "Union" => (typeOfUnion typeAt arguments, arguments.contains "None".toList)
  | "Annotated" => typeAt (arguments.headD [])
  | "List" | "list" | "Sequence" | "Set" | "set" | "FrozenSet" | "frozenset"
  | "Iterable" => (.array (typeAt inside).1, false)
  | "Dict" | "dict" | "Mapping" => (.primitive "object", false)
  | "Tuple" | "tuple" => (.array .any, false)
  | name => (typeRefFor name, false)

end Parts

/-- The type of an annotation, and whether it admits that there is no value.  Every step makes the
annotation shorter, so that its length bounds `fuel`. -/
def typeFrom (fuel : Nat) (s : List Char) : TypeRef × Bool :=
  let s := unquote (Text.trim s)
  match fuel with
  | 0 => (.any, false)
  | fuel + 1 =>
    let members := splitOutside '|' s
    if members.length > 1 then (typeOfUnion (typeFrom fuel) members, true)
    else match subscript? s with
      | none => (typeOfName s, false)
      | some (head, inside) => typeOfSubscript (typeFrom fuel) head inside

/-- The type of an annotation, and whether it admits that there is no value. -/
def typeOf (text : String) : TypeRef × Bool :=
  typeFrom (text.length + 1) text.toList

end ApiCanon.Python
