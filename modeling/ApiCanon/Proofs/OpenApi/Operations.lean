import ApiCanon.Proofs.Collection.KeyedList
import ApiCanon.Proofs.Collection.SortedMap
import ApiCanon.Proofs.OpenApi.Documents
import ApiCanon.Proofs.Text.Case

/-!
# Documented operations

The operations of a document are told from its paths alone, in their order (`documented`): under
each path that is not empty and has an object, the fields that name a verb of HTTP.  The endpoints
of the description are the first ones of them by verb and path, and each later one leaves a warning
(`endpoints_documented`), whatever the configuration is.
-/

namespace ApiCanon.OpenApi

open Json (Value Fields)

/-! ## Verbs -/

/-- The names of the verbs of HTTP, in small letters. -/
def verbNames : List (String × Method) :=
  [("get", .get), ("post", .post), ("put", .put), ("patch", .patch), ("delete", .delete),
    ("del", .delete), ("head", .head), ("options", .options), ("trace", .trace)]

/-- The verb that a field names in any case of its letters. -/
def verb? (field : String) : Option Method := verbNames.lookup (Text.asciiLower field)

lemma verb?_eq_some_iff {field : String} {m : Method} :
    verb? field = some m ↔ (Text.asciiLower field, m) ∈ verbNames :=
  SortedMap.lookup_eq_some_iff (by decide) _ _

lemma mem_verbNames_of_capitals {u : String} {m : Method} (found : Method.ofCapitals? u = some m)
    (http : m.isHttp = true) : (Text.asciiLower u, m) ∈ verbNames := by
  unfold Method.ofCapitals? at found
  split at found
  all_goals cases found
  all_goals first | decide +kernel | cases http

lemma operationMethod?_eq_verb? (field : String) : operationMethod? field = verb? field := by
  ext m
  rw [verb?_eq_some_iff, operationMethod?, Option.filter_eq_some_iff]
  constructor
  · rintro ⟨found, http⟩
    rw [← Text.asciiLower_asciiUpper]
    exact mem_verbNames_of_capitals found http
  · intro named
    have capitals : ∀ p ∈ verbNames, Method.ofCapitals? (Text.asciiUpper p.1) = some p.2 ∧
        p.2.isHttp = true := by decide +kernel
    have verb := capitals _ named
    rwa [Text.asciiUpper_asciiLower] at verb

/-! ## Operations -/

/-- The keys of the operations that a document has under a path. -/
def documentedUnder : String × Value → List EndpointKey
  | (path, .object fields) =>
    if path = "" then [] else fields.filterMap fun (field, _) => (verb? field).map (⟨·, path⟩)
  | _ => []

/-- The keys of the operations of a document, in its order, told from its paths. -/
def documented (paths : Fields) : List EndpointKey := paths.flatMap documentedUnder

/-- The warning that an operation is one of a key that is taken. -/
def duplicateOperation (k : EndpointKey) : Issue :=
  .general .duplicateEndpoint ("Duplicate endpoint " ++ k.text)

/-- The warnings about operations among others. -/
def operationWarnings (ws : List Issue) : List Issue :=
  ws.filter fun w => w.kind = .duplicateEndpoint

lemma keys_pathOperations (doc : Value) (v : Version) {path : String} (visible : path ≠ "")
    (fields : Fields) : (pathOperations doc v path fields).map (·.value.key) =
      documentedUnder (path, .object fields) := by
  rw [pathOperations, documentedUnder, if_neg visible, List.map_filterMap]
  refine List.filterMap_congr fun ⟨field, operation⟩ _ => ?_
  dsimp only
  rw [operationMethod?_eq_verb?, Option.map_map]
  rfl

/-! ## Progress -/

/-- What progress comes to after operations with some keys. -/
structure Progress.Follows (ks : List EndpointKey) (p : Progress) : Prop where
  endpoints : p.draft.keys = firstsBy id ks
  warned : operationWarnings p.warnings = (latersBy id ks).map duplicateOperation

section Progress

variable {ks : List EndpointKey} {p : Progress}

lemma Progress.add_eq (s : Settings) (p : Progress) (b : Built Endpoint) :
    p.add s b = ⟨(p.draft.addEndpoint (s.finish b.value)).1,
      p.warnings ++ (if b.value.key ∈ p.draft.keys then [duplicateOperation b.value.key] else []),
      p.dangling ++ b.dangling⟩ := by
  have fresh := p.draft.snd_addEndpoint (s.finish b.value)
  rw [s.key_finish] at fresh
  have warning : Issue.general .duplicateEndpoint
      ("Duplicate endpoint " ++ (s.finish b.value).locator) = duplicateOperation b.value.key := by
    rw [Endpoint.locator, s.key_finish]
    rfl
  unfold Progress.add
  dsimp only
  rw [fresh, warning]
  split_ifs <;> simp_all

lemma Progress.Follows.add (h : p.Follows ks) (s : Settings) (b : Built Endpoint) :
    (p.add s b).Follows (ks ++ [b.value.key]) := by
  have known : b.value.key ∈ p.draft.keys ↔ b.value.key ∈ ks.map id := by
    rw [h.endpoints, ← mem_map_firstsBy_iff, List.map_id]
  rw [Progress.add_eq]
  constructor
  · rw [p.draft.keys_addEndpoint, s.key_finish, firstsBy_concat, ← h.endpoints]
    simp only [known, id]
  · rw [operationWarnings, List.filter_append, ← operationWarnings, h.warned, latersBy_concat,
      List.map_append]
    simp only [known, id]
    split_ifs <;> rfl

lemma Progress.Follows.addAll (h : p.Follows ks) (s : Settings) (bs : List (Built Endpoint)) :
    (bs.foldl (Progress.add s) p).Follows (ks ++ bs.map (·.value.key)) := by
  induction bs generalizing ks p with
  | nil =>
    rw [List.map_nil, List.append_nil]
    exact h
  | cons b bs ih =>
    rw [List.map_cons, List.append_cons]
    exact ih (h.add s b)

/-- A warning of another kind leaves those about operations as they are. -/
lemma operationWarnings_append_other {ws others : List Issue}
    (other : ∀ w ∈ others, w.kind ≠ .duplicateEndpoint) :
    operationWarnings (ws ++ others) = operationWarnings ws := by
  rw [operationWarnings, List.filter_append, ← operationWarnings]
  have none : (others.filter fun w => w.kind = .duplicateEndpoint) = [] :=
    List.filter_eq_nil_iff.2 fun w hw => by simpa using other w hw
  rw [none, List.append_nil]

lemma Progress.Follows.addPath (h : p.Follows ks) (doc : Value) (v : Version) (s : Settings)
    (path : String × Value) : (p.addPath doc v s path).Follows (ks ++ documentedUnder path) := by
  obtain ⟨path, item⟩ := path
  unfold Progress.addPath
  dsimp only
  split_ifs with empty
  · obtain rfl := String.isEmpty_iff.1 empty
    have none : documentedUnder ("", item) = [] := by cases item <;> rfl
    rw [none, List.append_nil]
    refine ⟨h.endpoints, ?_⟩
    rw [operationWarnings_append_other (by simp [Issue.general]), h.warned]
  · have visible : path ≠ "" := fun same => empty (String.isEmpty_iff.2 same)
    cases item with
    | object fields =>
      rw [← keys_pathOperations doc v visible]
      exact h.addAll s _
    | null | bool | number | string | array =>
      rw [documentedUnder, List.append_nil]
      · exact h
      · nofun

lemma Progress.Follows.addPaths (h : p.Follows ks) (doc : Value) (v : Version) (s : Settings)
    (paths : Fields) :
    (paths.foldl (Progress.addPath doc v s) p).Follows (ks ++ documented paths) := by
  induction paths generalizing ks p with
  | nil =>
    rw [documented, List.flatMap_nil, List.append_nil]
    exact h
  | cons path paths ih =>
    rw [documented, List.flatMap_cons, ← List.append_assoc]
    exact ih (h.addPath doc v s path)

end Progress

/-- **The endpoints of a description are the first documented operations.**  Of a document of a
known version that has paths, the endpoints are those that it documents, in its order and the first
one for each verb and path; each of the others leaves a warning, in the same order.  No other field
brings an endpoint, and no configuration changes any of this. -/
theorem endpoints_documented {text : List Char} {doc : Value} {v : Version} {paths : Fields}
    (loaded : load text = .ok doc) (known : versionOf doc = .ok v)
    (listed : (doc.get? "paths").bind Value.asObject? = some paths) (kind : SourceKind)
    (s : Settings) :
    ∃ a, (read kind text s).ast = some a ∧ (read kind text s).errors = [] ∧
      a.endpoints.map Endpoint.key = firstsBy id (documented paths) ∧
      operationWarnings (read kind text s).warnings =
        (latersBy id (documented paths)).map duplicateOperation := by
  have opened : open? text = .ok (doc, v) := by
    rw [open?, loaded, ok_bind, known]
    rfl
  have start : Progress.Follows [] ⟨preamble kind doc v s, [], []⟩ :=
    ⟨preamble_keys kind doc v s, rfl⟩
  have follows := start.addPaths doc v s paths
  rw [List.nil_append] at follows
  unfold read
  rw [opened]
  dsimp only
  rw [listed]
  refine ⟨_, rfl, rfl, follows.endpoints, ?_⟩
  rw [← follows.warned]
  refine operationWarnings_append_other fun w hw => ?_
  obtain ⟨reference, -, rfl⟩ := List.mem_map.1 hw
  exact nofun

/-- Paths with verbs in several spellings and with fields that name none, and paths that bring
nothing. -/
def shopPaths : Fields :=
  [("/a", .object [("get", .object []), ("GET", .object []), ("query", .object []),
      ("del", .object [])]),
    ("", .object [("get", .object [])]), ("/b", .array []),
    ("/c", .object [("Delete", .object []), ("DEL", .object []), ("x", .object [])])]

/-- A document with these paths. -/
def shopText : List Char :=
  ("\x7b\"openapi\":\"3.0.3\",\"paths\":\x7b\"/a\":\x7b\"get\":\x7b\x7d,\"GET\":\x7b\x7d," ++
    "\"query\":\x7b\x7d,\"del\":\x7b\x7d\x7d,\"\":\x7b\"get\":\x7b\x7d\x7d,\"/b\":[]," ++
    "\"/c\":\x7b\"Delete\":\x7b\x7d,\"DEL\":\x7b\x7d,\"x\":\x7b\x7d\x7d\x7d\x7d").toList

/-- Of two spellings of one verb the first brings the endpoint, and the second leaves a warning. -/
theorem endpoints_documented_shop :
    load shopText = .ok (.object [("openapi", .string "3.0.3"), ("paths", .object shopPaths)]) ∧
      ∃ a, (read .openApi shopText (.ofConfig none)).ast = some a ∧
        a.endpoints.map Endpoint.key =
          [⟨.get, "/a"⟩, ⟨.delete, "/a"⟩, ⟨.delete, "/c"⟩] ∧
        operationWarnings (read .openApi shopText (.ofConfig none)).warnings =
          [duplicateOperation ⟨.get, "/a"⟩, duplicateOperation ⟨.delete, "/c"⟩] := by
  have loaded : load shopText =
      .ok (.object [("openapi", .string "3.0.3"), ("paths", .object shopPaths)]) := by
    decide +kernel
  have listed : ((Value.object [("openapi", .string "3.0.3"), ("paths", .object shopPaths)]).get?
      "paths").bind Value.asObject? = some shopPaths := rfl
  obtain ⟨a, ha, -, keys, warned⟩ :=
    endpoints_documented (v := .three) loaded (by decide +kernel) listed .openApi (.ofConfig none)
  have firsts : firstsBy id (documented shopPaths) =
      [⟨.get, "/a"⟩, ⟨.delete, "/a"⟩, ⟨.delete, "/c"⟩] := by decide +kernel
  have laters : latersBy id (documented shopPaths) = [⟨.get, "/a"⟩, ⟨.delete, "/c"⟩] := by
    decide +kernel
  rw [firsts] at keys
  rw [laters] at warned
  exact ⟨loaded, a, ha, keys, warned⟩

end ApiCanon.OpenApi
