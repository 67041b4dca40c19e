import ApiCanon.Text.Blank
import ApiCanon.Text.Search

/-!
# Paths of routes

Routes write their parameters as `:id` or `<int:id>`; the common form is `{id}`.
-/

namespace ApiCanon.Route

/-- A name between braces. -/
def placeholder (name : List Char) : List Char := '\x7b' :: name ++ ['\x7d']

/-- The part of a text behind its last colon; all of it without one. -/
def afterLastColon (s : List Char) : List Char :=
  match Text.splitAtLast? (· == ':') s with
  | some (_, name) => name
  | none => s

/-- A segment of a path with its parameter in the common form.  A colon in front or a pair of
angle brackets around it makes a parameter; question marks at the end and a converter in the
brackets do not belong to its name. -/
def normalizeSegment (s : List Char) : List Char :=
  match s with
  | ':' :: name => placeholder (Text.dropRightWhile (· == '?') name)
  | '<' :: r =>
    match r.reverse with
    | '>' :: inner => placeholder (afterLastColon inner.reverse)
    | _ => s
  | _ => s

/-- The segments joined by slashes, with a slash in front if there is none. -/
def rooted (s : List Char) : List Char :=
  match s with
  | '/' :: _ => s
  | _ => '/' :: s

/-- A path in the common form. -/
def normalizeChars (path : List Char) : List Char :=
  rooted (['/'].intercalate ((Text.splitAll (· == '/') (Text.trim path)).map normalizeSegment))

/-- A path in the common form: trimmed, rooted, its parameters between braces. -/
def normalize (path : String) : String := String.ofList (normalizeChars path.toList)

theorem normalizeChars_head (path : List Char) : (normalizeChars path).head? = some '/' := by
  unfold normalizeChars rooted
  split <;> simp_all

end ApiCanon.Route
