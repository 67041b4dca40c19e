import ApiCanon.Proofs.Diff.Parameters
import ApiCanon.Proofs.OpenApi.Contents
import Mathlib.Data.List.Pairwise

/-!
# Parameters of operations

The parameters of an operation come from the entries of its path and from its own, references
followed once.  Of the entries with one name and one spelling of the place the last counts
(`parameters_build`), and of those that are the body of a request the last one altogether
(`requestBody_build`).

The place of a parameter is read in any case, and form data has the place of a body, so that entries
with different spellings may describe parameters of one name and place, and then both are there.  So
what an operation says of a parameter takes the place of what its path says exactly if such entries
are spelled alike (`parameters_override_iff`).
-/

namespace ApiCanon.OpenApi

open Json (Value Fields)

/-! ## References -/

/-- The part of a document that a reference leads to. -/
def target? (doc : Value) (reference : String) : Option Value :=
  (Text.stripPrefix? ['#'] reference.toList).bind doc.pointer?

section References

variable {doc p : Value} {reference : String}

lemma resolve_of_plain (plain : p.stringField? "$ref" = none) : resolve doc p = .ok p := by
  rw [resolve, plain]

lemma resolve_of_target {t : Value} (refers : p.stringField? "$ref" = some reference)
    (led : target? doc reference = some t) : resolve doc p = .ok t := by
  rw [target?] at led
  simp only [resolve, refers, led]

lemma resolve_of_lost (refers : p.stringField? "$ref" = some reference)
    (lost : target? doc reference = none) : resolve doc p = .error reference := by
  rw [target?] at lost
  simp only [resolve, refers, lost]

/-- What cannot be resolved is a reference that leads nowhere. -/
lemma resolve_eq_error_iff : resolve doc p = .error reference ↔
    p.stringField? "$ref" = some reference ∧ target? doc reference = none := by
  constructor
  · intro failed
    cases refers : p.stringField? "$ref" with
    | none =>
      rw [resolve_of_plain refers] at failed
      cases failed
    | some r =>
      cases led : target? doc r with
      | some t =>
        rw [resolve_of_target refers led] at failed
        cases failed
      | none =>
        rw [resolve_of_lost refers led] at failed
        obtain rfl := Except.error.inj failed
        exact ⟨rfl, led⟩
  · rintro ⟨refers, lost⟩
    exact resolve_of_lost refers lost

end References

/-! ## Entries -/

/-- The objects that entries stand for, without those that lead nowhere. -/
def resolved (doc : Value) (entries : List Value) : List Value :=
  entries.filterMap fun p => (resolve doc p).toOption

/-- The reference of an entry, if it leads nowhere. -/
def lost? (doc p : Value) : Option String :=
  match resolve doc p with
  | .ok _ => none
  | .error reference => some reference

/-- What an entry becomes: the parameter that it describes, unless it is the body. -/
def described? (v : Version) (raw : Value) : Option Parameter :=
  if isBodyParameter v raw then none else buildParameter? v raw

/-- The name and the place of the parameter that an entry describes. -/
def slot? (v : Version) (raw : Value) : Option (String × Location) :=
  (described? v raw).map Parameter.slot

lemma lost?_eq_some_iff {doc p : Value} {reference : String} :
    lost? doc p = some reference ↔ resolve doc p = .error reference := by
  unfold lost?
  cases resolve doc p with
  | ok t => exact iff_of_false nofun nofun
  | error r => simp

lemma resolved_append (doc : Value) (entries others : List Value) :
    resolved doc (entries ++ others) = resolved doc entries ++ resolved doc others :=
  List.filterMap_append

lemma resolved_cons_of_ok {doc p t : Value} (led : resolve doc p = .ok t) (entries : List Value) :
    resolved doc (p :: entries) = t :: resolved doc entries :=
  List.filterMap_cons_some (by rw [led]; rfl)

/-- Of the entries with one name and one spelling of the place the last is kept. -/
lemma effectiveParameters_eq (doc : Value) (entries : List Value) :
    effectiveParameters doc entries =
      ⟨lastsBy identity (resolved doc entries), entries.filterMap (lost? doc)⟩ := by
  induction entries using List.reverseRecOn with
  | nil => rfl
  | append_singleton entries p ih =>
    rw [effectiveParameters, List.foldl_append, ← effectiveParameters, ih, resolved_append,
      List.filterMap_append, List.foldl_cons, List.foldl_nil]
    cases found : resolve doc p with
    | ok t =>
      have quiet : lost? doc p = none := by rw [lost?, found]
      rw [resolved_cons_of_ok found, List.filterMap_cons_none quiet]
      dsimp only
      have single : resolved doc [] = [] := rfl
      rw [overrideParameter, single, List.filterMap_nil, List.append_nil, lastsBy_concat]
      congr 3
      funext q
      by_cases same : identity q = identity t <;> simp [same]
    | error r =>
      have broken : lost? doc p = some r := lost?_eq_some_iff.2 found
      have gone : resolved doc [p] = [] := List.filterMap_cons_none (by rw [found]; rfl)
      rw [gone, List.append_nil, List.filterMap_cons_some broken, List.filterMap_nil]

/-! ## Descriptions -/

/-- The name and the place that are read off the fields of an entry; the body has none. -/
def slotOf? (v : Version) (fields : Option String × Option String) : Option (String × Location) :=
  if v == .two && fields.2 == some "body" then none
  else fields.1.bind fun name => (fields.2.bind Location.ofText?).map fun location =>
    (name, location)

lemma slot?_eq (v : Version) (raw : Value) : slot? v raw = slotOf? v (identity raw) := by
  unfold slot? described? slotOf? identity isBodyParameter
  split_ifs
  · rfl
  · unfold buildParameter?
    cases raw.stringField? "name" with
    | none => rfl
    | some name =>
      cases (raw.stringField? "in").bind Location.ofText? with
      | none => rfl
      | some location => rfl

lemma slot?_congr {e f : Value} (same : identity e = identity f) (v : Version) :
    slot? v e = slot? v f := by
  rw [slot?_eq, slot?_eq, same]

lemma name_of_slot? {v : Version} {e : Value} {k : String × Location} (h : slot? v e = some k) :
    e.stringField? "name" = some k.1 := by
  rw [slot?_eq, slotOf?] at h
  split_ifs at h
  obtain ⟨name, named, h⟩ := Option.bind_eq_some_iff.1 h
  obtain ⟨location, -, rfl⟩ := Option.map_eq_some_iff.1 h
  exact named

/-- Entries that describe parameters of one name and place spell the place alike. -/
def SpelledAlike (v : Version) (es : List Value) : Prop :=
  ∀ e ∈ es, ∀ f ∈ es, ∀ k, slot? v e = some k → slot? v f = some k →
    e.stringField? "in" = f.stringField? "in"

lemma SpelledAlike.identity_eq {v : Version} {es : List Value} (h : SpelledAlike v es)
    {e f : Value} (he : e ∈ es) (hf : f ∈ es) {k : String × Location} (first : slot? v e = some k)
    (second : slot? v f = some k) : identity e = identity f :=
  Prod.ext ((name_of_slot? first).trans (name_of_slot? second).symm) (h e he f hf k first second)

lemma SpelledAlike.mono {v : Version} {es fs : List Value} (h : SpelledAlike v es) (sub : fs ⊆ es) :
    SpelledAlike v fs :=
  fun e he f hf => h e (sub he) f (sub hf)

/-- Where entries are spelled alike it is the same to keep the last ones before or after they are
taken for parameters. -/
lemma filterMap_lastsBy {v : Version} {es : List Value} (h : SpelledAlike v es) :
    (lastsBy identity es).filterMap (described? v) =
      lastsBy Parameter.slot (es.filterMap (described? v)) := by
  induction es using List.reverseRecOn with
  | nil => rfl
  | append_singleton es e ih =>
    have before := ih (h.mono (List.subset_append_left _ _))
    rw [lastsBy_concat, List.filterMap_append, List.filterMap_append]
    cases described : described? v e with
    | none =>
      have bare : slot? v e = none := by rw [slot?, described]; rfl
      rw [List.filterMap_cons_none described, List.filterMap_nil, List.append_nil, List.append_nil,
        ← before, List.filterMap_filter]
      refine List.filterMap_congr fun f _ => ?_
      split_ifs with other
      · rfl
      · have same : identity f = identity e := by simpa using other
        have none : (described? v f).map Parameter.slot = none := (slot?_congr same v).trans bare
        exact (Option.map_eq_none_iff.1 none).symm
    | some p =>
      have here : slot? v e = some p.slot := by rw [slot?, described]; rfl
      rw [List.filterMap_cons_some described, List.filterMap_nil, lastsBy_concat, ← before,
        List.filter_filterMap, List.filterMap_filter]
      refine congrArg (· ++ [p]) (List.filterMap_congr fun f hf => ?_)
      cases other : described? v f with
      | none => simp
      | some r =>
        have there : slot? v f = some r.slot := by rw [slot?, other]; rfl
        have alike : identity f = identity e ↔ r.slot = p.slot := by
          constructor
          · intro same
            exact Option.some.inj (there.symm.trans ((slot?_congr same v).trans here))
          · intro same
            exact h.identity_eq (List.mem_append_left _ (lastsBy_subset identity es hf)) (by simp)
              (same ▸ there) here
        simp [alike, Option.filter]

/-- Parameters with distinct names and places come from entries that are spelled alike. -/
lemma spelledAlike_of_nodup {v : Version} {es : List Value}
    (distinct : (((lastsBy identity es).filterMap (described? v)).map Parameter.slot).Nodup) :
    SpelledAlike v es := by
  intro e he f hf k first second
  rw [List.map_filterMap] at distinct
  have apart : (lastsBy identity es).Pairwise fun x y =>
      ∀ a, slot? v x = some a → ∀ b, slot? v y = some b → a ≠ b :=
        List.pairwise_filterMap.1 distinct
  have symm : Std.Symm fun x y => ∀ a, slot? v x = some a → ∀ b, slot? v y = some b → a ≠ b :=
    ⟨fun x y ne b hb a ha same => ne a ha b hb same.symm⟩
  obtain ⟨e', he', sameE⟩ := List.mem_map.1
    ((mem_map_lastsBy_iff identity es _).2 (List.mem_map_of_mem he))
  obtain ⟨f', hf', sameF⟩ := List.mem_map.1
    ((mem_map_lastsBy_iff identity es _).2 (List.mem_map_of_mem hf))
  have first' : slot? v e' = some k := (slot?_congr sameE v).trans first
  have second' : slot? v f' = some k := (slot?_congr sameF v).trans second
  obtain rfl : e' = f' := by
    by_contra other
    exact apart.forall he' hf' other k first' k second' rfl
  exact congrArg Prod.snd (sameE.symm.trans sameF)

/-! ## Operations -/

/-- The last entry for the body is also the last one of those that are kept. -/
lemma getLast?_filter_lastsBy (v : Version) (es : List Value) :
    ((lastsBy identity es).filter (isBodyParameter v)).getLast? =
      (es.filter (isBodyParameter v)).getLast? := by
  induction es using List.reverseRecOn with
  | nil => rfl
  | append_singleton es e ih =>
    rw [lastsBy_concat, List.filter_append, List.filter_append, List.filter_singleton]
    cases body : isBodyParameter v e with
    | true => rw [cond_true, List.getLast?_concat, List.getLast?_concat]
    | false =>
      rw [cond_false, List.append_nil, List.append_nil, ← ih, List.filter_filter]
      congr 2
      funext f
      by_cases same : identity f = identity e
      · have plain : isBodyParameter v f = false := by
          rw [← body, isBodyParameter, isBodyParameter, (Prod.mk.inj same).2]
        simp [plain]
      · simp [same]

/-- The parameters of an endpoint. -/
lemma parameters_build (doc : Value) (v : Version) (o : Operation) :
    (o.build doc v).value.parameters =
      (lastsBy identity (resolved doc o.entries)).filterMap (described? v) := by
  have plain : (o.build doc v).value.parameters =
      ((effectiveParameters doc o.entries).value.filter fun p => !isBodyParameter v p).filterMap
        (buildParameter? v) := rfl
  rw [plain, effectiveParameters_eq, List.filterMap_filter]
  refine List.filterMap_congr fun e _ => ?_
  rw [described?]
  cases isBodyParameter v e <;> rfl

/-- The body that the entries of an operation stand for is that of the last such entry. -/
lemma requestBody_build (doc : Value) (o : Operation) : (o.build doc .two).value.requestBody =
    ((resolved doc o.entries).filter (isBodyParameter .two)).getLast?.map bodyOfParameter := by
  have plain : (o.build doc .two).value.requestBody =
      (((effectiveParameters doc o.entries).value.filter (isBodyParameter .two)).map
        bodyOfParameter).getLast? := rfl
  rw [plain, effectiveParameters_eq, List.getLast?_map, getLast?_filter_lastsBy]

/-- The parameters of an endpoint, and its body in the older generation, are those that entries
describe. -/
structure MadeOf (doc : Value) (v : Version) (entries : List Value) (e : Endpoint) : Prop where
  parameters : e.parameters = (lastsBy identity (resolved doc entries)).filterMap (described? v)
  body : v = .two → e.requestBody =
    ((resolved doc entries).filter (isBodyParameter v)).getLast?.map bodyOfParameter

/-- An endpoint of a description is made of the entries of its operation. -/
lemma madeOf_finish (s : Settings) (doc : Value) (v : Version) (o : Operation) :
    MadeOf doc v o.entries (s.finish (o.build doc v).value) := by
  obtain ⟨tags, finished⟩ := s.finish_eq (o.build doc v).value
  rw [finished]
  refine ⟨parameters_build doc v o, fun older => ?_⟩
  subst older
  exact requestBody_build doc o

/-- The parameter of a name and place that the last entry for it describes. -/
def lastAt? (v : Version) (es : List Value) (name : String) (location : Location) :
    Option Parameter :=
  (es.filterMap (described? v)).reverse.find? fun p => p.slot = (name, location)

/-- An endpoint has one parameter for each name and place: what the last of its own entries says of
it, and otherwise the last of those of its path. -/
structure Overrides (v : Version) (shared own : List Value) (e : Endpoint) : Prop where
  distinct : (e.parameters.map Parameter.slot).Nodup
  last : ∀ name location, e.parameter? name location =
    (lastAt? v own name location).or (lastAt? v shared name location)

lemma parameter?_eq (e : Endpoint) (name : String) (location : Location) :
    e.parameter? name location = e.parameters.find? fun p => p.slot = (name, location) := by
  unfold Endpoint.parameter?
  congr 1
  funext p
  rw [← Bool.decide_coe (p.name == name && p.location == location)]
  simp [Parameter.slot]

lemma lastAt?_append (v : Version) (shared own : List Value) (name : String) (location : Location) :
    lastAt? v (shared ++ own) name location =
      (lastAt? v own name location).or (lastAt? v shared name location) := by
  rw [lastAt?, List.filterMap_append, List.reverse_append, List.find?_append, lastAt?, lastAt?]

/-- Own entries override those of the path exactly if entries are spelled alike, and otherwise some
name and place has several parameters. -/
lemma overrides_iff_spelledAlike {v : Version} {shared own : List Value} {e : Endpoint}
    (parameters : e.parameters =
      (lastsBy identity (shared ++ own)).filterMap (described? v)) :
    (Overrides v shared own e ↔ SpelledAlike v (shared ++ own)) ∧
      ((e.parameters.map Parameter.slot).Nodup ↔ SpelledAlike v (shared ++ own)) := by
  have alike : (e.parameters.map Parameter.slot).Nodup → SpelledAlike v (shared ++ own) :=
    fun distinct => spelledAlike_of_nodup (parameters ▸ distinct)
  have overrides : SpelledAlike v (shared ++ own) → Overrides v shared own e := by
    intro spelled
    have kept := parameters.trans (filterMap_lastsBy spelled)
    constructor
    · rw [kept]
      exact nodup_map_lastsBy Parameter.slot _
    · intro name location
      rw [parameter?_eq, kept, find?_lastsBy, ← lastAt?_append, lastAt?]
  exact ⟨⟨fun h => alike h.distinct, overrides⟩, alike, fun spelled => (overrides spelled).distinct⟩

/-- **The parameters of an operation override those of its path exactly if entries are spelled
alike.**  In the description of every document, the entries of each operation being resolved once:
whether the endpoint has one parameter for each name and place, the last own one or else the last
one of the path, and whether it has no two of one name and place, both come to whether no two of its
entries for one name and place spell the place differently.  In any spelling the last entry of a
name and a spelling is kept, and of the entries for the body the last. -/
theorem parameters_override_iff [Grammars] (now : Timestamp) {q : ReadRequest} {doc : Value}
    {v : Version} (h : Opens q doc v) : ∃ a, (Registry.defaults.read now q).ast = some a ∧
      List.Forall₂ (fun o e => e.key = o.key ∧ MadeOf doc v o.entries e ∧
          (Overrides v (resolved doc o.shared) (resolved doc o.own) e ↔
            SpelledAlike v (resolved doc o.entries)) ∧
          ((e.parameters.map Parameter.slot).Nodup ↔ SpelledAlike v (resolved doc o.entries)))
        (firstOperations doc) a.endpoints := by
  obtain ⟨a, describes⟩ := describes_of_opens now h
  refine ⟨a, describes.ast, ?_⟩
  rw [describes.endpoints, List.forall₂_map_right_iff, List.forall₂_same]
  intro o _
  have made := madeOf_finish (.ofConfig q.config) doc v o
  have parameters := made.parameters
  refine ⟨Settings.key_finish _ _, made, ?_⟩
  rw [Operation.entries, resolved_append] at parameters ⊢
  exact overrides_iff_spelledAlike parameters

/-- A document with a parameter of a path, given by a reference, that its operation changes. -/
def pagesText : String :=
  "\x7b\"openapi\":\"3\",\"paths\":\x7b\"/a\":\x7b\"parameters\":[\x7b\"$ref\":\"#/size\"\x7d]," ++
    "\"get\":\x7b\"parameters\":[\x7b\"name\":\"n\",\"in\":\"query\",\"required\":true\x7d]" ++
    "\x7d\x7d\x7d,\"size\":\x7b\"name\":\"n\",\"in\":\"query\"\x7d\x7d"

def sharedSize : Value := .object [("name", .string "n"), ("in", .string "query")]

def ownSize : Value :=
  .object [("name", .string "n"), ("in", .string "query"), ("required", .bool true)]

def pagesOperation : Operation :=
  ⟨.get, "/a", [.object [("$ref", .string "#/size")]], .object [("parameters", .array [ownSize])]⟩

def pagesDocument : Value :=
  .object [("openapi", .string "3"),
    ("paths", .object [("/a", .object [("parameters", .array pagesOperation.shared),
      ("get", pagesOperation.object)])]), ("size", sharedSize)]

theorem parameters_override_iff_pages : Opens (requestFor pagesText) pagesDocument .three ∧
    ∃ a e, (Registry.defaults.read ⟨0, 0⟩ (requestFor pagesText)).ast = some a ∧ a.endpoints = [e] ∧
      Overrides .three [sharedSize] [ownSize] e ∧
      e.parameters = [(Parameter.plain "n" .query .any).withRequired true] := by
  have opens : Opens (requestFor pagesText) pagesDocument .three :=
    opens_requestFor (by decide +kernel)
  obtain ⟨a, read, represents⟩ := parameters_override_iff ⟨0, 0⟩ opens
  have operations : firstOperations pagesDocument = [pagesOperation] := by decide +kernel
  have shared : resolved pagesDocument pagesOperation.shared = [sharedSize] := by decide +kernel
  have own : resolved pagesDocument pagesOperation.own = [ownSize] := by decide +kernel
  have entries : resolved pagesDocument pagesOperation.entries = [sharedSize, ownSize] := by
    decide +kernel
  rw [operations] at represents
  obtain ⟨e, rest, ⟨-, made, overrides, -⟩, others, same⟩ := List.forall₂_cons_left_iff.1 represents
  obtain rfl := List.forall₂_nil_left_iff.1 others
  have parameters := made.parameters
  rw [entries] at parameters overrides
  rw [shared, own] at overrides
  have alike : SpelledAlike .three [sharedSize, ownSize] := by
    intro e he f hf _ _ _
    have place : ∀ e ∈ [sharedSize, ownSize], e.stringField? "in" = some "query" := by
      decide +kernel
    rw [place e he, place f hf]
  refine ⟨opens, a, e, read, same, overrides.2 alike, parameters.trans ?_⟩
  decide +kernel

/-- A document with a parameter of a path that its operation gives in another spelling. -/
def spellingsText : String :=
  "\x7b\"openapi\":\"3\",\"paths\":\x7b\"/a\":\x7b\"parameters\":[\x7b\"name\":\"q\"," ++
    "\"in\":\"query\"\x7d],\"get\":\x7b\"parameters\":[\x7b\"name\":\"q\",\"in\":\"Query\"," ++
    "\"required\":true\x7d]\x7d\x7d\x7d\x7d"

/-- An optional parameter, with its place in small letters. -/
def optionalQuery : Value := .object [("name", .string "q"), ("in", .string "query")]

/-- A required parameter of the same name and place. -/
def requiredQuery : Value :=
  .object [("name", .string "q"), ("in", .string "Query"), ("required", .bool true)]

def spellingsOperation : Operation :=
  ⟨.get, "/a", [optionalQuery], .object [("parameters", .array [requiredQuery])]⟩

def spellingsDocument : Value :=
  .object [("openapi", .string "3"),
    ("paths", .object [("/a", .object [("parameters", .array spellingsOperation.shared),
      ("get", spellingsOperation.object)])])]

/-- **A parameter is not overridden in another spelling of its place.**  The endpoint then has two
parameters of one name and place. -/
theorem not_overrides_of_spelling : ∃ a e,
    (Registry.defaults.read ⟨0, 0⟩ (requestFor spellingsText)).ast = some a ∧ a.endpoints = [e] ∧
      e.parameters = [Parameter.plain "q" .query .any,
        (Parameter.plain "q" .query .any).withRequired true] ∧
      ¬Overrides .three [optionalQuery] [requiredQuery] e := by
  have opens : Opens (requestFor spellingsText) spellingsDocument .three :=
    opens_requestFor (by decide +kernel)
  obtain ⟨a, describes⟩ := describes_of_opens ⟨0, 0⟩ opens
  have operations : firstOperations spellingsDocument = [spellingsOperation] := by decide +kernel
  have endpoints := describes.endpoints
  rw [operations, List.map_singleton] at endpoints
  have parameters : (spellingsOperation.build spellingsDocument .three).value.parameters =
      [Parameter.plain "q" .query .any, (Parameter.plain "q" .query .any).withRequired true] := by
    decide +kernel
  refine ⟨a, _, describes.ast, endpoints, parameters, fun overrides => ?_⟩
  have distinct : ((spellingsOperation.build spellingsDocument .three).value.parameters.map
      Parameter.slot).Nodup := overrides.distinct
  rw [parameters] at distinct
  exact absurd distinct (by decide)

end ApiCanon.OpenApi
