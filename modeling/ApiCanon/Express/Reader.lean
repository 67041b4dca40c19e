import ApiCanon.DocComment.Reader
import ApiCanon.Source.Reading
import ApiCanon.Source.Route
import ApiCanon.Text.Word

/-!
# Reading Express routes

A route is declared by a call such as `app.get('/users', …)`: a name, a point, a verb, and a
quoted path as the first argument.  The doc comment right in front of the call describes it.
Only calls on names that look like routers count, and a route for all verbs is skipped.
-/

namespace ApiCanon.Express

/-- A call that declares a route. -/
structure Call where
  /-- Where the call begins in the source. -/
  place : Nat
  receiver : List Char
  verb : String
  path : List Char
  deriving DecidableEq, Repr

/-- The verbs of routes. -/
def verbs : List String :=
  ["get", "post", "put", "patch", "delete", "head", "options", "all"]

def isReceiverStart (c : Char) : Bool := c.isAlpha || c == '_' || c == '$'

def isReceiverChar (c : Char) : Bool := Text.isWordChar c || c == '$'

def isQuote (c : Char) : Bool := c == '\'' || c == '"' || c.toNat == 96

/-- The verb at the beginning of a text, and what follows it. -/
def verbAt? (s : List Char) : Option (String × List Char) :=
  verbs.findSome? fun v => (Text.stripPrefix? v.toList s).map fun r => (v, r)

/-- The quoted path behind an opening parenthesis, blanks allowed in front of both. -/
def pathAt? (s : List Char) : Option (List Char × List Char) :=
  match Text.trimLeft s with
  | '(' :: r =>
    match Text.trimLeft r with
    | q :: r =>
      if !isQuote q then none
      else match r.dropWhile (fun c => !isQuote c) with
        | _ :: rest => some (r.takeWhile (fun c => !isQuote c), rest)
        | [] => none
    | [] => none
  | _ => none

/-- The call at the beginning of a text, if there is one, and what follows it.  `before?` is the
character in front: a call begins where a word does, or at a dollar sign behind a word. -/
def callAt? (place : Nat) (before? : Option Char) (s : List Char) :
    Option (Call × List Char) :=
  match s with
  | [] => none
  | c :: r =>
    let wordBefore := (before?.map Text.isWordChar).getD false
    if !isReceiverStart c || wordBefore == Text.isWordChar c then none
    else match r.dropWhile isReceiverChar with
      | '.' :: rest =>
        match verbAt? rest with
        | none => none
        | some (verb, rest) =>
          (pathAt? rest).map fun (path, rest) =>
            (⟨place, c :: r.takeWhile isReceiverChar, verb, path⟩, rest)
      | _ => none

/-- The calls of a text of which the first character stands at `place`; the next `skip`
characters belong to the call found last. -/
def callsFrom (place skip : Nat) (before? : Option Char) : List Char → List Call
  | [] => []
  | c :: r =>
    match skip with
    | k + 1 => callsFrom (place + 1) k (some c) r
    | 0 =>
      match callAt? place before? (c :: r) with
      | some (call, rest) =>
        call :: callsFrom (place + 1) (r.length - rest.length) (some c) r
      | none => callsFrom (place + 1) 0 (some c) r

/-- The calls of a source. -/
def calls (text : List Char) : List Call := callsFrom 0 0 none text

/-- Whether a name looks like that of a router. -/
def isRouter (name : List Char) : Bool :=
  [("app" : String), "router", "api", "server"].contains (String.ofList name) ||
    Text.endsWith "Router".toList name

/-- The last doc comment in front of a place, if nothing but blanks lies between. -/
def commentBefore? (text : List Char) (bs : List DocComment.Block) (place : Nat) :
    Option DocComment.Block :=
  (bs.reverse.find? fun b => b.stop ≤ place).filter fun b =>
    Text.allBlank ((text.take place).drop b.stop)

/-- Adds the endpoint that a call declares. -/
def addCall (text : List Char) (bs : List DocComment.Block) (s : Settings)
    (p : Progress) (c : Call) : Progress :=
  let line := DocComment.lineAt text c.place
  if !isRouter c.receiver then p
  else if c.verb == "all" then
    p.warn ⟨.ambiguous, s!"Skipped '{String.ofList c.receiver}.all' route {String.ofList c.path}",
      some line⟩
  else match Method.ofText? c.verb with
    | none => p
    | some m =>
      let e := Endpoint.plain m (String.ofList (Route.normalizeChars c.path))
      p.addEndpoint s line (match commentBefore? text bs c.place with
        | some b => DocComment.apply b e
        | none => e)

/-- Reads a source. -/
def read (text : List Char) (s : Settings) : Reading :=
  let bs := DocComment.blocks text
  let p := (calls text).foldl (addCall text bs s) (.start SourceKind.express.tag s)
  let p := bs.foldl (DocComment.addTypedef text) p
  .success p.draft.ast p.warnings

/-- What is wrong with the comments of a source; routes are read all the same. -/
def check (text : List Char) : List Issue := (DocComment.unterminatedError? text).toList

end ApiCanon.Express
