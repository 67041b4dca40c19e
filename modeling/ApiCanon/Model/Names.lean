import ApiCanon.Text.Case

/-!
# Verbs and places

The verbs of operations, the verbs of HTTP and the three kinds of a graph query, and the places
where a parameter is carried.  Each has one written form; reading ignores ASCII case and knows
one more spelling for two of them.
-/

namespace ApiCanon

/-- The verb of an operation. -/
inductive Method where
  | get
  | post
  | put
  | patch
  | delete
  | head
  | options
  | trace
  | query
  | mutation
  | subscription
  deriving DecidableEq, Repr, Inhabited

namespace Method

/-- All verbs, in their order. -/
def all : List Method :=
  [get, post, put, patch, delete, head, options, trace, query, mutation, subscription]

/-- The written form. -/
def text : Method → String
  | get => "GET"
  | post => "POST"
  | put => "PUT"
  | patch => "PATCH"
  | delete => "DELETE"
  | head => "HEAD"
  | options => "OPTIONS"
  | trace => "TRACE"
  | query => "QUERY"
  | mutation => "MUTATION"
  | subscription => "SUBSCRIPTION"

/-- Whether the verb belongs to HTTP. -/
def isHttp : Method → Bool
  | query | mutation | subscription => false
  | _ => true

/-- The place of a verb in the order of verbs. -/
def rank (m : Method) : Nat := all.idxOf m

/-- The verb of a written form in capitals; `DEL` is short for `DELETE`. -/
def ofCapitals? : String → Option Method
  | "GET" => some get
  | "POST" => some post
  | "PUT" => some put
  | "PATCH" => some patch
  | "DELETE" => some delete
  | "DEL" => some delete
  | "HEAD" => some head
  | "OPTIONS" => some options
  | "TRACE" => some trace
  | "QUERY" => some query
  | "MUTATION" => some mutation
  | "SUBSCRIPTION" => some subscription
  | _ => none

/-- Reads a verb in any case. -/
def ofText? (s : String) : Option Method := ofCapitals? (Text.asciiUpper s)

/-- The complaint about a text that is no verb. -/
def unknownMessage (s : String) : String := "Unknown method: " ++ s

@[simp] theorem ofCapitals?_text (m : Method) : ofCapitals? m.text = some m := by
  cases m <;> rfl

theorem text_injective {m n : Method} (h : m.text = n.text) : m = n := by
  have := congrArg ofCapitals? h
  simpa using this

end Method

/-- Where a parameter is carried. -/
inductive Location where
  | path
  | query
  | header
  | cookie
  | body
  deriving DecidableEq, Repr, Inhabited

namespace Location

def all : List Location := [path, query, header, cookie, body]

/-- The written form. -/
def text : Location → String
  | path => "path"
  | query => "query"
  | header => "header"
  | cookie => "cookie"
  | body => "body"

/-- The place of a written form in small letters; form data is carried in the body. -/
def ofSmall? : String → Option Location
  | "path" => some path
  | "query" => some query
  | "header" => some header
  | "cookie" => some cookie
  | "body" => some body
  | "formdata" => some body
  | _ => none

/-- Reads a place in any case. -/
def ofText? (s : String) : Option Location := ofSmall? (Text.asciiLower s)

/-- The complaint about a text that is no place. -/
def unknownMessage (s : String) : String := "Unknown parameter location: " ++ s

end Location

end ApiCanon
