import ApiCanon.Model.Decode
import ApiCanon.Model.Encode
import ApiCanon.Source.Issue
import ApiCanon.Text.Bytes

/-!
# Requests and results

A request names the type of its source and holds the contents; a result holds the description
of the source or the reasons why there is none.
-/

namespace ApiCanon

open Json (Value Decoder)

/-- A source: contents at hand, or a file whose contents may not have been loaded. -/
inductive Source where
  | inline (content : Bytes)
  | file (path : String) (content : Option Bytes)
  deriving DecidableEq, Repr, Inhabited

namespace Source

def bytes? : Source → Option Bytes
  | inline b => some b
  | file _ b => b

/-- Where the source comes from, for messages. -/
def origin? : Source → Option String
  | inline _ => none
  | file p _ => some p

end Source

/-- A request to read a source. -/
structure ReadRequest where
  tag : String
  source : Source
  config : Option Value
  deriving Inhabited

/-- What has become of a request. -/
structure ReadResult where
  sourceType : String
  origin : Option String
  ast : Option Ast
  warnings : List Issue
  errors : List Issue
  /-- The references that lead nowhere, in ascending order. -/
  brokenDependencies : List String
  succeeded : Bool
  deriving Inhabited

namespace ReadResult

/-- A request that failed for one reason. -/
def failed (r : ReadRequest) (e : Issue) : ReadResult :=
  ⟨r.tag, r.source.origin?, none, [], [e], [], false⟩

def toJson (r : ReadResult) : Value :=
  .object <| [("sourceType", .string r.sourceType)] ++ textField "origin" r.origin ++
    [("status", .string (if r.succeeded then "success" else "failed"))] ++
    (match r.ast with
      | some a => [("ast", a.toJson)]
      | none => []) ++
    [("warnings", .array (r.warnings.map Issue.toJson)),
      ("errors", .array (r.errors.map Issue.toJson)),
      ("brokenDependencies", .array (r.brokenDependencies.map .string)),
      ("durationMs", .ofNat 0)]

def decode : Decoder ReadResult :=
  .record "struct ParseResult" 8 fun s =>
    (fun t o st a w e b (_ : Nat) => ReadResult.mk t o a w e b st)
      <$> s.required 0 "sourceType" .text
      <*> s.optional 1 "origin" .text
      <*> s.required 2 "status" (.variant [("success", true), ("failed", false)])
      <*> s.optional 3 "ast" Ast.decode
      <*> s.withDefault 4 "warnings" (.list Issue.decode) []
      <*> s.withDefault 5 "errors" (.list Issue.decode) []
      <*> s.withDefault 6 "brokenDependencies" (.list .text) []
      <*> s.required 7 "durationMs" .u64

end ReadResult

end ApiCanon
