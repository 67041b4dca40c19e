import ApiCanon.Proofs.OpenApi.Parameters
import Mathlib.Logic.Relation

/-!
# Shared parameters

What becomes of an entry that refers to a parameter elsewhere in the document
(`shared_parameter_fate`).  One that leads nowhere is reported, and the description is marked.  One
that leads to the object of a parameter, or of a body, is that parameter or body of the endpoint,
unless a later entry takes its place.  In both cases the entry is accounted for (`Accounted`).

References are followed once, so that an entry may also lead to a further reference, or to an object
that describes nothing.  Such an entry is left out, as if it were not there, and nothing is reported
(`dropped_of_chain`).
-/

namespace ApiCanon.OpenApi

open Json (Value Fields)
open Relation (ReflTransGen)

/-! ## References that lead nowhere -/

lemma dangling_build (doc : Value) (v : Version) (o : Operation) : (o.build doc v).dangling =
    o.entries.filterMap (lost? doc) ++
      (operationBody doc v (effectiveParameters doc o.entries).value o.object).dangling ++
      (operationResponses doc v o.object).dangling := by
  have plain : (o.build doc v).dangling = (effectiveParameters doc o.entries).dangling ++
      (operationBody doc v (effectiveParameters doc o.entries).value o.object).dangling ++
      (operationResponses doc v o.object).dangling := rfl
  rw [plain, effectiveParameters_eq]

section Lost

variable {doc : Value} {v : Version} {reference : String}

lemma target?_of_mem_operationBody {params : List Value} {object : Value}
    (mem : reference ∈ (operationBody doc v params object).dangling) :
    target? doc reference = none := by
  cases v with
  | two => cases mem
  | three =>
    rw [operationBody] at mem
    split at mem
    · cases mem
    · split at mem
      · cases mem
      · next failed =>
        obtain rfl := List.mem_singleton.1 mem
        exact (resolve_eq_error_iff.1 failed).2

lemma target?_of_mem_operationResponses {object : Value}
    (mem : reference ∈ (operationResponses doc v object).dangling) :
    target? doc reference = none := by
  obtain ⟨b, hb, mem⟩ := List.mem_flatMap.1 mem
  obtain ⟨⟨status, raw⟩, -, rfl⟩ := List.mem_map.1 hb
  dsimp only at mem
  split at mem
  · cases mem
  · next failed =>
    obtain rfl := List.mem_singleton.1 mem
    exact (resolve_eq_error_iff.1 failed).2

/-- Only what leads nowhere is lost. -/
lemma Lost.target? (h : Lost doc v reference) : target? doc reference = none := by
  obtain ⟨o, -, mem⟩ := h
  rw [dangling_build, List.mem_append, List.mem_append] at mem
  rcases mem with (entry | body) | response
  · obtain ⟨p, -, failed⟩ := List.mem_filterMap.1 entry
    exact (resolve_eq_error_iff.1 (lost?_eq_some_iff.1 failed)).2
  · exact target?_of_mem_operationBody body
  · exact target?_of_mem_operationResponses response

/-- An entry that leads nowhere is lost. -/
lemma lost_of_entry {o : Operation} (ho : o ∈ operations doc) {p : Value} (hp : p ∈ o.entries)
    (refers : p.stringField? "$ref" = some reference)
    (gone : OpenApi.target? doc reference = none) :
    Lost doc v reference := by
  refine ⟨o, ho, ?_⟩
  rw [dangling_build, List.append_assoc]
  refine List.mem_append_left _ (List.mem_filterMap.2 ⟨p, hp, ?_⟩)
  exact lost?_eq_some_iff.2 (resolve_of_lost refers gone)

end Lost

/-! ## Entries that lead somewhere -/

section Entries

variable {v : Version} {before after : List Value} {t : Value}

/-- An object that describes no parameter has no part in the parameters. -/
lemma filterMap_lastsBy_middle (bare : slot? v t = none) :
    (lastsBy identity (before ++ t :: after)).filterMap (described? v) =
      (lastsBy identity (before ++ after)).filterMap (described? v) := by
  -- what describes a parameter is told by its identity, so it can be chosen before the last
  -- ones are kept
  have chosen (es : List Value) : (lastsBy identity es).filterMap (described? v) =
      (lastsBy identity (es.filter fun e => (slotOf? v (identity e)).isSome)).filterMap
        (described? v) := by
    rw [lastsBy_filter identity fun fields => (slotOf? v fields).isSome, List.filterMap_filter]
    refine List.filterMap_congr fun e _ => ?_
    rw [← slot?_eq, slot?, Option.isSome_map]
    cases described? v e <;> rfl
  have gone : (slotOf? v (identity t)).isSome = false := by rw [← slot?_eq, bare]; rfl
  rw [chosen, chosen (before ++ after), List.filter_append, List.filter_cons, gone,
    List.filter_append]
  rfl

/-- A parameter is there unless a later entry of its name and spelling takes its place. -/
lemma mem_parameters_or_overridden {p : Parameter} (describes : described? v t = some p) :
    p ∈ (lastsBy identity (before ++ t :: after)).filterMap (described? v) ∨
      ∃ f ∈ after, identity f = identity t := by
  by_cases overridden : ∃ f ∈ after, identity f = identity t
  · exact .inr overridden
  · refine .inl (List.mem_filterMap.2 ⟨t, ?_, describes⟩)
    exact (mem_lastsBy_iff identity _ t).2
      ⟨before, after, rfl, fun f hf same => overridden ⟨f, hf, same⟩⟩

/-- A body is there unless a later entry is a body as well. -/
lemma getLast?_body_or_overridden (body : isBodyParameter v t = true) :
    ((before ++ t :: after).filter (isBodyParameter v)).getLast? = some t ∨
      ∃ f ∈ after, isBodyParameter v f = true := by
  by_cases overridden : ∃ f ∈ after, isBodyParameter v f = true
  · exact .inr overridden
  · refine .inl ?_
    have none : after.filter (isBodyParameter v) = [] :=
      List.filter_eq_nil_iff.2 fun f hf here => overridden ⟨f, hf, here⟩
    rw [List.filter_append, List.filter_cons_of_pos body, none, List.getLast?_concat]

end Entries

/-! ## Fates -/

/-- A value refers to another part of its document. -/
def Refers (doc v w : Value) : Prop :=
  ∃ reference, v.stringField? "$ref" = some reference ∧ target? doc reference = some w

/-- An object is that of a parameter or of a body. -/
def IsParameter (v : Version) (t : Value) : Prop :=
  (described? v t).isSome = true ∨ isBodyParameter v t = true

/-- An endpoint has what an object describes, unless a later entry takes its place. -/
inductive Shown (doc : Value) (v : Version) (e : Endpoint) (after : List Value) (t : Value) :
    Prop where
  | parameter (p : Parameter) (describes : described? v t = some p)
      (shown : p ∈ e.parameters ∨ ∃ f ∈ resolved doc after, identity f = identity t)
  | body (body : isBodyParameter v t = true)
      (shown : e.requestBody = some (bodyOfParameter t) ∨
        ∃ f ∈ resolved doc after, isBodyParameter v f = true)

/-- The references from an entry on end at an object that an endpoint shows, or they do not end at
the object of a parameter, and one of them is reported. -/
def Accounted (doc : Value) (v : Version) (r : ReadResult) (a : Ast) (e : Endpoint) (p : Value)
    (after : List Value) : Prop :=
  (∃ t, ReflTransGen (Refers doc) p t ∧ t.stringField? "$ref" = none ∧ Shown doc v e after t) ∨
  (¬∃ t, ReflTransGen (Refers doc) p t ∧ t.stringField? "$ref" = none ∧ IsParameter v t) ∧
    ∃ t reference, ReflTransGen (Refers doc) p t ∧ t.stringField? "$ref" = some reference ∧
      danglingWarning reference ∈ r.warnings ∧ referenceName reference ∈ r.brokenDependencies ∧
      a.unresolved = true

/-- What becomes of an entry that refers, with the entries before and after it. -/
inductive Fate (doc : Value) (v : Version) (r : ReadResult) (a : Ast) (e : Endpoint)
    (before after : List Value) (reference : String) : Prop where
  /-- It leads nowhere. -/
  | reported (gone : target? doc reference = none)
      (warned : danglingWarning reference ∈ r.warnings)
      (broken : referenceName reference ∈ r.brokenDependencies) (marked : a.unresolved = true)
  /-- It leads to the object of a parameter or of a body. -/
  | shown (t : Value) (led : target? doc reference = some t) (shown : Shown doc v e after t)
  /-- It leads to something else, a further reference or an object that describes nothing. -/
  | dropped (t : Value) (led : target? doc reference = some t) (other : ¬IsParameter v t)
      (traceless : MadeOf doc v (before ++ after) e)
      (silent : danglingWarning reference ∉ r.warnings)

section Fates

variable {doc : Value} {v : Version} {r : ReadResult} {a : Ast} {e : Endpoint}
  {before after : List Value} {p t : Value} {reference : String}

lemma isBodyParameter_eq_two (body : isBodyParameter v t = true) : v = .two := by
  cases v with
  | two => rfl
  | three => cases body

lemma Shown.isParameter (h : Shown doc v e after t) : IsParameter v t := by
  cases h with
  | parameter p describes => exact .inl (Option.isSome_iff_exists.2 ⟨p, describes⟩)
  | body body => exact .inr body

/-- What the object of a parameter or of a body describes is shown. -/
lemma shown_of_isParameter (made : MadeOf doc v (before ++ p :: after) e)
    (led : resolve doc p = .ok t) (h : IsParameter v t) : Shown doc v e after t := by
  have parameters := made.parameters
  have body := made.body
  rw [resolved_append, resolved_cons_of_ok led] at parameters body
  rcases h with describes | isBody
  · obtain ⟨p, describes⟩ := Option.isSome_iff_exists.1 describes
    refine .parameter p describes ?_
    rw [parameters]
    exact mem_parameters_or_overridden describes
  · refine .body isBody ?_
    rw [body (isBodyParameter_eq_two isBody)]
    exact (getLast?_body_or_overridden isBody).imp_left fun last => by rw [last]; rfl

/-- An object that describes nothing leaves no trace. -/
lemma madeOf_of_not_isParameter (made : MadeOf doc v (before ++ p :: after) e)
    (led : resolve doc p = .ok t) (h : ¬IsParameter v t) : MadeOf doc v (before ++ after) e := by
  obtain ⟨describes, noBody⟩ := not_or.1 h
  have bare : slot? v t = none := by
    rw [slot?, Option.not_isSome_iff_eq_none.1 describes]
    rfl
  have parameters := made.parameters
  have body := made.body
  rw [resolved_append, resolved_cons_of_ok led] at parameters body
  refine ⟨?_, fun older => ?_⟩
  · rw [parameters, filterMap_lastsBy_middle bare, ← resolved_append]
  · rw [body older, List.filter_append, List.filter_cons_of_neg noBody, ← List.filter_append,
      ← resolved_append]

lemma fate_of_led (made : MadeOf doc v (before ++ p :: after) e)
    (refers : p.stringField? "$ref" = some reference) (led : target? doc reference = some t)
    (silent : danglingWarning reference ∉ r.warnings) :
    Fate doc v r a e before after reference := by
  have here := resolve_of_target refers led
  by_cases h : IsParameter v t
  · exact .shown t led (shown_of_isParameter made here h)
  · exact .dropped t led h (madeOf_of_not_isParameter made here h) silent

/-- Whatever a reference leads to that refers no further ends the chain from it. -/
lemma eq_or_eq_of_chain (refers : p.stringField? "$ref" = some reference)
    (ends : ∀ t, target? doc reference = some t → t.stringField? "$ref" = none) {w : Value}
    (chain : ReflTransGen (Refers doc) p w) : w = p ∨ target? doc reference = some w := by
  induction chain with
  | refl => exact .inl rfl
  | tail _ step ih =>
    obtain ⟨next, there, led⟩ := step
    rcases ih with rfl | last
    · obtain rfl := Option.some.inj (refers.symm.trans there)
      exact .inr led
    · cases (ends _ last).symm.trans there

/-- An entry that leads to no further reference is accounted for if it leads nowhere, or to the
object of a parameter or of a body. -/
lemma Fate.accounted_iff (fate : Fate doc v r a e before after reference)
    (refers : p.stringField? "$ref" = some reference)
    (ends : ∀ t, target? doc reference = some t → t.stringField? "$ref" = none) :
    Accounted doc v r a e p after ↔ ∀ t, target? doc reference = some t → IsParameter v t := by
  have settles : ∀ {w : Value}, ReflTransGen (Refers doc) p w → w.stringField? "$ref" = none →
      target? doc reference = some w := by
    intro w chain plain
    refine (eq_or_eq_of_chain refers ends chain).resolve_left ?_
    rintro rfl
    cases refers.symm.trans plain
  cases fate with
  | reported gone warned broken marked =>
    refine iff_of_true (.inr ⟨?_, p, reference, .refl, refers, warned, broken, marked⟩)
      fun t led => ?_
    · rintro ⟨t, chain, plain, -⟩
      cases gone.symm.trans (settles chain plain)
    · cases gone.symm.trans led
  | shown t led shown =>
    refine iff_of_true (.inl ⟨t, .single ⟨reference, refers, led⟩, ends t led, shown⟩) ?_
    intro w there
    exact Option.some.inj (led.symm.trans there) ▸ shown.isParameter
  | dropped t led other _ silent =>
    refine iff_of_false ?_ fun all => other (all t led)
    rintro (⟨w, chain, plain, shown⟩ | ⟨-, w, last, chain, there, warned, -⟩)
    · obtain rfl := Option.some.inj (led.symm.trans (settles chain plain))
      exact other shown.isParameter
    · rcases eq_or_eq_of_chain refers ends chain with rfl | target
      · obtain rfl := Option.some.inj (refers.symm.trans there)
        exact silent warned
      · cases (ends w target).symm.trans there

end Fates

/-- **What becomes of the entries that refer.**  In every document, the references of entries that
lead nowhere are reported, whatever operation they belong to, and the description is marked.  Every
other entry of an endpoint that refers leads to the object of a parameter or of a body, which the
endpoint has unless a later entry takes its place, or it leads to something else: then it is left
out like one that is not there, and no warning is about it.  So, of the entries that lead to no
further reference, those are accounted for that lead nowhere or to the object of a parameter or of a
body. -/
theorem shared_parameter_fate [Grammars] (now : Timestamp) {q : ReadRequest} {doc : Value}
    {v : Version} (h : Opens q doc v) : ∃ a, (Registry.defaults.read now q).ast = some a ∧
      (∀ o ∈ operations doc, ∀ p ∈ o.entries, ∀ reference,
        p.stringField? "$ref" = some reference → target? doc reference = none →
          danglingWarning reference ∈ (Registry.defaults.read now q).warnings ∧
          referenceName reference ∈ (Registry.defaults.read now q).brokenDependencies ∧
          a.unresolved = true) ∧
      List.Forall₂ (fun o e => e.key = o.key ∧ MadeOf doc v o.entries e ∧
          ∀ before p after reference, o.entries = before ++ p :: after →
            p.stringField? "$ref" = some reference →
              Fate doc v (Registry.defaults.read now q) a e before after reference ∧
              ((∀ t, target? doc reference = some t → t.stringField? "$ref" = none) →
                (Accounted doc v (Registry.defaults.read now q) a e p after ↔
                  ∀ t, target? doc reference = some t → IsParameter v t)))
        (firstOperations doc) a.endpoints := by
  obtain ⟨a, describes⟩ := describes_of_opens now h
  have reports : ∀ reference, Lost doc v reference →
      danglingWarning reference ∈ (Registry.defaults.read now q).warnings ∧
      referenceName reference ∈ (Registry.defaults.read now q).brokenDependencies ∧
      a.unresolved = true := by
    intro reference lost
    have broken := (describes.broken _).2 (.inr ⟨reference, lost, rfl⟩)
    exact ⟨(describes.warned reference).2 lost, broken,
      describes.marked.2 (List.ne_nil_of_mem broken)⟩
  refine ⟨a, describes.ast, ?_, ?_⟩
  · intro o ho p hp reference refers gone
    exact reports reference (lost_of_entry ho hp refers gone)
  · rw [describes.endpoints, List.forall₂_map_right_iff, List.forall₂_same]
    intro o ho
    have made := madeOf_finish (.ofConfig q.config) doc v o
    refine ⟨Settings.key_finish _ _, made, fun before p after reference whole refers => ?_⟩
    rw [whole] at made
    have fate : Fate doc v (Registry.defaults.read now q) a
        ((Settings.ofConfig q.config).finish (o.build doc v).value) before after reference := by
      cases led : target? doc reference with
      | some t =>
        refine fate_of_led made refers led fun warned => ?_
        rw [((describes.warned reference).1 warned).target?] at led
        cases led
      | none =>
        have mem : p ∈ o.entries := by rw [whole]; simp
        obtain ⟨warned, broken, marked⟩ :=
          reports reference (lost_of_entry (firstsBy_subset _ _ ho) mem refers led)
        exact .reported led warned broken marked
    exact ⟨fate, fate.accounted_iff refers⟩

/-- A document with an entry that leads nowhere, and one that leads to a parameter. -/
def sharedText : String :=
  "\x7b\"openapi\":\"3\",\"paths\":\x7b\"/a\":\x7b\"get\":\x7b\"parameters\":[\x7b\"$ref\":\"#/no\"" ++
    "\x7d,\x7b\"$ref\":\"#/size\"\x7d]\x7d\x7d\x7d,\"size\":\x7b\"name\":\"n\",\"in\":\"query\"\x7d\x7d"

def referringEntry (reference : String) : Value := .object [("$ref", .string reference)]

def sharedOperation : Operation :=
  ⟨.get, "/a", [], .object
    [("parameters", .array [referringEntry "#/no", referringEntry "#/size"])]⟩

def sharedDocument : Value :=
  .object [("openapi", .string "3"),
    ("paths", .object [("/a", .object [("get", sharedOperation.object)])]), ("size", sharedSize)]

theorem shared_parameter_fate_size : Opens (requestFor sharedText) sharedDocument .three ∧
    ∃ a e, (Registry.defaults.read ⟨0, 0⟩ (requestFor sharedText)).ast = some a ∧
      a.endpoints = [e] ∧ "no" ∈ (Registry.defaults.read ⟨0, 0⟩
        (requestFor sharedText)).brokenDependencies ∧ a.unresolved = true ∧
      Parameter.plain "n" .query .any ∈ e.parameters := by
  have opens : Opens (requestFor sharedText) sharedDocument .three :=
    opens_requestFor (by decide +kernel)
  obtain ⟨a, read, reports, fates⟩ := shared_parameter_fate ⟨0, 0⟩ opens
  have all : operations sharedDocument = [sharedOperation] := by decide +kernel
  have firsts : firstOperations sharedDocument = [sharedOperation] := by decide +kernel
  have entries : sharedOperation.entries = [referringEntry "#/no", referringEntry "#/size"] := by
    decide +kernel
  have gone : target? sharedDocument "#/no" = none := by decide +kernel
  have led : target? sharedDocument "#/size" = some sharedSize := by decide +kernel
  have describes : described? .three sharedSize = some (Parameter.plain "n" .query .any) := by
    decide +kernel
  obtain ⟨-, broken, marked⟩ := reports sharedOperation (all ▸ List.mem_singleton.2 rfl)
    (referringEntry "#/no") (by rw [entries]; simp) "#/no" rfl gone
  rw [firsts] at fates
  obtain ⟨e, rest, ⟨-, -, fate⟩, others, same⟩ := List.forall₂_cons_left_iff.1 fates
  obtain rfl := List.forall₂_nil_left_iff.1 others
  have name : referenceName "#/no" = "no" := by decide +kernel
  refine ⟨opens, a, e, read, same, name ▸ broken, marked, ?_⟩
  cases (fate [referringEntry "#/no"] (referringEntry "#/size") [] "#/size" entries rfl).1 with
  | reported gone => cases gone.symm.trans led
  | shown t led' shown =>
    obtain rfl := Option.some.inj (led.symm.trans led')
    cases shown with
    | parameter p describes' shown =>
      obtain rfl := Option.some.inj (describes.symm.trans describes')
      exact shown.resolve_right nofun
    | body body => cases body
  | dropped t led' other =>
    obtain rfl := Option.some.inj (led.symm.trans led')
    exact absurd (.inl (Option.isSome_iff_exists.2 ⟨_, describes⟩)) other

/-! ## Chains of references -/

/-- A document with an entry that leads to a parameter by two references. -/
def chainText : String :=
  "\x7b\"openapi\":\"3\",\"paths\":\x7b\"/a\":\x7b\"get\":\x7b\"parameters\":[\x7b\"$ref\":\"#/x\"" ++
    "\x7d]\x7d\x7d\x7d,\"x\":\x7b\"$ref\":\"#/y\"\x7d,\"y\":\x7b\"name\":\"n\",\"in\":\"query\"\x7d\x7d"

def chainOperation : Operation :=
  ⟨.get, "/a", [], .object [("parameters", .array [referringEntry "#/x"])]⟩

def chainDocument : Value :=
  .object [("openapi", .string "3"),
    ("paths", .object [("/a", .object [("get", chainOperation.object)])]),
    ("x", referringEntry "#/y"), ("y", sharedSize)]

/-- **A parameter behind two references is dropped quietly.**  The references end at the object of a
parameter, but the endpoint has none, and nothing is reported. -/
theorem dropped_of_chain : ∃ a e,
    (Registry.defaults.read ⟨0, 0⟩ (requestFor chainText)).ast = some a ∧ a.endpoints = [e] ∧
      chainOperation.entries = [referringEntry "#/x"] ∧
      ReflTransGen (Refers chainDocument) (referringEntry "#/x") sharedSize ∧
      IsParameter .three sharedSize ∧ e.parameters = [] ∧
      (Registry.defaults.read ⟨0, 0⟩ (requestFor chainText)).brokenDependencies = [] ∧
      a.unresolved = false ∧ ¬Accounted chainDocument .three
        (Registry.defaults.read ⟨0, 0⟩ (requestFor chainText)) a e (referringEntry "#/x") [] := by
  have opens : Opens (requestFor chainText) chainDocument .three :=
    opens_requestFor (by decide +kernel)
  obtain ⟨a, describes⟩ := describes_of_opens ⟨0, 0⟩ opens
  have all : operations chainDocument = [chainOperation] := by decide +kernel
  have firsts : firstOperations chainDocument = [chainOperation] := by decide +kernel
  have endpoints := describes.endpoints
  rw [firsts, List.map_singleton] at endpoints
  have built : (chainOperation.build chainDocument .three).dangling = [] ∧
      (chainOperation.build chainDocument .three).value.parameters = [] ∧
      (chainOperation.build chainDocument .three).value.referencedNames = [] := by decide +kernel
  have noSchemas : definitions chainDocument .three = [] := by decide +kernel
  have first : Refers chainDocument (referringEntry "#/x") (referringEntry "#/y") :=
    ⟨"#/x", rfl, by decide +kernel⟩
  have second : Refers chainDocument (referringEntry "#/y") sharedSize :=
    ⟨"#/y", rfl, by decide +kernel⟩
  have chain : ReflTransGen (Refers chainDocument) (referringEntry "#/x") sharedSize :=
    .tail (.single first) second
  have describes' : IsParameter .three sharedSize := .inl (by decide +kernel)
  have whole : ∀ n, ¬a.Dangles n := by
    rintro n ⟨⟨e, he, refers⟩ | ⟨k, x, found, -⟩, -⟩
    · obtain rfl := List.mem_singleton.1 (endpoints ▸ he)
      have named := (Endpoint.mem_referencedNames_iff _ n).2 refers
      exact absurd named (built.2.2 ▸ List.not_mem_nil)
    · rw [describes.schemas, noSchemas] at found
      cases found
  have led : ∀ reference, ¬Lost chainDocument .three reference := by
    rintro reference ⟨o, ho, lost⟩
    obtain rfl := List.mem_singleton.1 (all ▸ ho)
    exact absurd lost (built.1 ▸ List.not_mem_nil)
  have broken := describes.broken_eq_nil whole led
  refine ⟨a, _, describes.ast, endpoints, by decide +kernel, chain, describes', built.2.1, broken,
    ?_, ?_⟩
  · exact Bool.eq_false_iff.2 fun marked => describes.marked.1 marked broken
  · rintro (⟨t, -, -, ⟨p, -, there | ⟨f, later, -⟩⟩ | ⟨body, -⟩⟩ | ⟨none, -⟩)
    · exact absurd there (built.2.1 ▸ List.not_mem_nil)
    · cases later
    · cases body
    · exact none ⟨sharedSize, chain, rfl, describes'⟩

end ApiCanon.OpenApi
