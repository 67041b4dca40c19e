import ApiCanon.Proofs.OpenApi.Operations
import ApiCanon.Proofs.Source.References
import ApiCanon.Proofs.Text.Utf8

/-!
# Contents of API documents

What a request for a document is answered with, told from the document (`describes_of_opens`): the
first operation of each verb and path is an endpoint, as it is built from the document, each
definition is a schema, and the broken dependencies are the names that dangle in the description and
those of the references that led nowhere while the operations were built, later ones of a verb and
path included.
-/

namespace ApiCanon.OpenApi

open Json (Value Fields)

/-! ## Operations -/

/-- An operation of a document, with the parameters that the operations of its path share. -/
structure Operation where
  method : Method
  path : String
  shared : List Value
  object : Value
  deriving DecidableEq

namespace Operation

def key (o : Operation) : EndpointKey := ⟨o.method, o.path⟩

/-- The parameters that an operation has itself. -/
def own (o : Operation) : List Value := ((o.object.get? "parameters").bind Value.asArray?).getD []

/-- The parameters that hold for an operation: those of its path come before its own. -/
def entries (o : Operation) : List Value := o.shared ++ o.own

/-- The endpoint that an operation becomes, and the references that led nowhere on the way. -/
def build (doc : Value) (v : Version) (o : Operation) : Built Endpoint :=
  buildEndpoint doc v o.method o.path o.shared o.object

lemma key_build (doc : Value) (v : Version) (o : Operation) :
    (o.build doc v).value.key = o.key := rfl

end Operation

/-- The operations that a document has under a path. -/
def operationsUnder : String × Value → List Operation
  | (path, .object item) =>
    if path = "" then []
    else item.filterMap fun (field, object) => (operationMethod? field).map fun m =>
      ⟨m, path, ((Fields.get? "parameters" item).bind Value.asArray?).getD [], object⟩
  | _ => []

/-- The operations of a document, in its order. -/
def operations (doc : Value) : List Operation :=
  (((doc.get? "paths").bind Value.asObject?).getD []).flatMap operationsUnder

/-- The operations of a document that become endpoints: the first one of each verb and path. -/
def firstOperations (doc : Value) : List Operation := firstsBy Operation.key (operations doc)

/-- A reference leads nowhere in an operation of a document. -/
def Lost (doc : Value) (v : Version) (reference : String) : Prop :=
  ∃ o ∈ operations doc, reference ∈ (o.build doc v).dangling

lemma pathOperations_eq (doc : Value) (v : Version) {path : String} (visible : path ≠ "")
    (item : Fields) : pathOperations doc v path item =
      (operationsUnder (path, .object item)).map (Operation.build doc v) := by
  rw [pathOperations, operationsUnder, if_neg visible, List.map_filterMap]
  refine List.filterMap_congr fun p _ => ?_
  obtain ⟨field, operation⟩ := p
  dsimp only
  rw [Option.map_map]
  rfl

/-! ## Progress -/

lemma ast_addEndpoint (d : Draft) (e : Endpoint) : (d.addEndpoint e).1.ast =
    { d.ast with
      endpoints := d.ast.endpoints ++
        if e.key ∈ d.ast.endpoints.map Endpoint.key then [] else [e] } := by
  have known := d.hasEndpoint_iff e.key
  rw [Draft.keys] at known
  simp only [Draft.addEndpoint, known]
  split_ifs
  · rw [List.append_nil]
  · rfl

/-- What progress from a draft comes to after some operations. -/
structure Progress.Gathers (s : Settings) (d : Draft) (bs : List (Built Endpoint))
    (p : Progress) : Prop where
  ast : p.draft.ast =
    { d.ast with endpoints := firstsBy Endpoint.key (bs.map fun b => s.finish b.value) }
  dangling : p.dangling = bs.flatMap Built.dangling
  others : ∀ w ∈ p.warnings, w.kind ≠ .unresolvedReference

namespace Progress.Gathers

variable {s : Settings} {d : Draft} {bs : List (Built Endpoint)} {p : Progress}

lemma start (empty : d.ast.endpoints = []) : Progress.Gathers s d [] ⟨d, [], []⟩ where
  ast := by
    rw [List.map_nil]
    exact congrArg (fun l => { d.ast with endpoints := l }) empty
  dangling := rfl
  others := nofun

lemma add (h : Progress.Gathers s d bs p) (b : Built Endpoint) :
    Progress.Gathers s d (bs ++ [b]) (p.add s b) := by
  rw [Progress.add_eq]
  constructor
  · have known (k : EndpointKey) :
        k ∈ (firstsBy Endpoint.key (bs.map fun b => s.finish b.value)).map Endpoint.key ↔
          k ∈ (bs.map fun b => s.finish b.value).map Endpoint.key :=
      mem_map_firstsBy_iff Endpoint.key _ k
    rw [ast_addEndpoint, h.ast, List.map_append, List.map_singleton, firstsBy_concat]
    simp only [known]
  · rw [h.dangling, List.flatMap_append, List.flatMap_singleton]
  · intro w hw
    rcases List.mem_append.1 hw with hw | hw
    · exact h.others w hw
    · split_ifs at hw
      · exact List.mem_singleton.1 hw ▸ nofun
      · cases hw

lemma addAll (h : Progress.Gathers s d bs p) (cs : List (Built Endpoint)) :
    Progress.Gathers s d (bs ++ cs) (cs.foldl (Progress.add s) p) := by
  induction cs generalizing bs p with
  | nil =>
    rw [List.append_nil]
    exact h
  | cons c cs ih =>
    rw [List.append_cons]
    exact ih (h.add c)

lemma addPath (h : Progress.Gathers s d bs p) (doc : Value) (v : Version)
    (path : String × Value) : Progress.Gathers s d
      (bs ++ (operationsUnder path).map (Operation.build doc v)) (p.addPath doc v s path) := by
  obtain ⟨path, item⟩ := path
  unfold Progress.addPath
  dsimp only
  split_ifs with empty
  · obtain rfl := String.isEmpty_iff.1 empty
    have none : operationsUnder ("", item) = [] := by cases item <;> rfl
    rw [none, List.map_nil, List.append_nil]
    refine ⟨h.ast, h.dangling, fun w hw => ?_⟩
    rcases List.mem_append.1 hw with hw | hw
    · exact h.others w hw
    · exact List.mem_singleton.1 hw ▸ nofun
  · have visible : path ≠ "" := fun same => empty (String.isEmpty_iff.2 same)
    cases item with
    | object fields =>
      rw [← pathOperations_eq doc v visible]
      exact h.addAll _
    | null | bool | number | string | array =>
      rw [operationsUnder, List.map_nil, List.append_nil]
      · exact h
      · nofun

lemma addPaths (h : Progress.Gathers s d bs p) (doc : Value) (v : Version) (paths : Fields) :
    Progress.Gathers s d (bs ++ (paths.flatMap operationsUnder).map (Operation.build doc v))
      (paths.foldl (Progress.addPath doc v s) p) := by
  induction paths generalizing bs p with
  | nil =>
    rw [List.flatMap_nil, List.map_nil, List.append_nil]
    exact h
  | cons path paths ih =>
    rw [List.flatMap_cons, List.map_append, ← List.append_assoc]
    exact ih (h.addPath doc v path)

end Progress.Gathers

/-! ## Schemas -/

lemma get?_foldl_addSchema (l : Fields) (d : Draft) (n : String) :
    (l.foldl (fun d (name, raw) => (d.addSchema (buildSchema name raw)).1) d).ast.schemas.get? n =
      (d.ast.schemas.get? n <|> (Fields.get? n l).map (buildSchema n)) := by
  induction l generalizing d with
  | nil => simp
  | cons p l ih =>
    obtain ⟨k, raw⟩ := p
    have name : (buildSchema k raw).name = k := rfl
    rw [List.foldl_cons, ih, Fields.get?]
    simp only [Draft.addSchema, name]
    by_cases here : k = n
    · subst here
      rw [if_pos rfl, Option.map_some]
      cases known : d.ast.schemas.get? k with
      | some x =>
        have there : d.hasSchema k = true := by rw [Draft.hasSchema, SortedMap.contains, known]; rfl
        rw [if_pos there, known]
        rfl
      | none =>
        have gone : ¬d.hasSchema k = true := by
          rw [Draft.hasSchema, SortedMap.contains, known]
          exact Bool.false_ne_true
        rw [if_neg gone]
        dsimp only
        rw [SortedMap.get?_insert_self]
        rfl
    · rw [if_neg here]
      split_ifs
      · rfl
      · dsimp only
        rw [SortedMap.get?_insert_of_ne _ (Ne.symm here)]

lemma get?_preamble (kind : SourceKind) (doc : Value) (v : Version) (s : Settings) (n : String) :
    (preamble kind doc v s).ast.schemas.get? n =
      (Fields.get? n (definitions doc v)).map (buildSchema n) := by
  unfold preamble
  dsimp only
  rw [get?_foldl_addSchema]
  split <;> rfl

/-! ## Warnings -/

lemma danglingWarning_injective {r t : String} (h : danglingWarning r = danglingWarning t) :
    r = t := by
  have message : "Unresolved reference '" ++ r ++ "'" = "Unresolved reference '" ++ t ++ "'" :=
    congrArg Issue.message h
  simpa using message

lemma danglingWarning_ne_unresolvedWarning (r n : String) :
    danglingWarning r ≠ Registry.unresolvedWarning n := by
  intro same
  have message :
      "Unresolved reference '" ++ r ++ "'" = "Reference to undefined schema '" ++ n ++ "'" :=
    congrArg Issue.message same
  have first := congrArg (fun m : String => m.toList.head?) message
  simp at first

/-! ## Results -/

/-- A request for a document: its contents are opened as a document of a generation. -/
def Opens (q : ReadRequest) (doc : Value) (v : Version) : Prop :=
  ∃ kind text, (kind = .openApi ∨ kind = .swagger) ∧ q.tag = SourceKind.tag kind ∧
    Registry.textOf q.source = .ok text ∧ open? text = .ok (doc, v)

/-- A result is a description of a document. -/
structure Describes (doc : Value) (v : Version) (s : Settings) (r : ReadResult) (a : Ast) :
    Prop where
  ast : r.ast = some a
  endpoints : a.endpoints = (firstOperations doc).map fun o => s.finish (o.build doc v).value
  schemas : ∀ n, a.schemas.get? n = (Fields.get? n (definitions doc v)).map (buildSchema n)
  broken : ∀ n, n ∈ r.brokenDependencies ↔
    a.Dangles n ∨ ∃ reference, Lost doc v reference ∧ referenceName reference = n
  marked : a.unresolved = true ↔ r.brokenDependencies ≠ []
  warned : ∀ reference, danglingWarning reference ∈ r.warnings ↔ Lost doc v reference

/-- What dangles in a description is reported. -/
lemma Describes.reported_of_dangles {doc : Value} {v : Version} {s : Settings} {r : ReadResult}
    {a : Ast} (h : Describes doc v s r a) {n : String} (dangles : a.Dangles n) :
    n ∈ r.brokenDependencies ∧ a.unresolved = true := by
  have broken := (h.broken n).2 (.inl dangles)
  exact ⟨broken, h.marked.2 (List.ne_nil_of_mem broken)⟩

/-- Nothing is broken where nothing dangles and no reference leads nowhere. -/
lemma Describes.broken_eq_nil {doc : Value} {v : Version} {s : Settings} {r : ReadResult} {a : Ast}
    (h : Describes doc v s r a) (whole : ∀ n, ¬a.Dangles n)
    (led : ∀ reference, ¬Lost doc v reference) : r.brokenDependencies = [] := by
  refine List.eq_nil_iff_forall_not_mem.2 fun n listed => ?_
  rcases (h.broken n).1 listed with dangles | ⟨reference, lost, -⟩
  · exact whole n dangles
  · exact led reference lost

/-- A document that is opened is read as a description, with the references that led nowhere. -/
lemma read_eq_reporting {text : List Char} {doc : Value} {v : Version}
    (opened : open? text = .ok (doc, v)) (kind : SourceKind) (s : Settings) :
    ∃ ws, (∀ w ∈ ws, w.kind ≠ .unresolvedReference) ∧
      read kind text s = .reporting
        { (preamble kind doc v s).ast with
          endpoints := (firstOperations doc).map fun o => s.finish (o.build doc v).value } ws
        (sortedNames (((operations doc).map (Operation.build doc v)).flatMap Built.dangling)) := by
  have empty : (preamble kind doc v s).ast.endpoints = [] :=
    List.map_eq_nil_iff.1 (preamble_keys kind doc v s)
  have firsts : firstsBy Endpoint.key (((operations doc).map (Operation.build doc v)).map fun b =>
      s.finish b.value) = (firstOperations doc).map fun o => s.finish (o.build doc v).value := by
    rw [List.map_map, firstsBy_map]
    simp only [Function.comp_apply, s.key_finish, Operation.key_build]
    rfl
  unfold read
  rw [opened]
  dsimp only
  cases listed : (doc.get? "paths").bind Value.asObject? with
  | none =>
    have none : operations doc = [] := by rw [operations, listed]; rfl
    refine ⟨[.general .ambiguous "Document has no 'paths' object"], ?_, ?_⟩
    · exact fun w hw => List.mem_singleton.1 hw ▸ nofun
    · rw [firstOperations, none]
      dsimp only
      rw [Reading.success_eq_reporting]
      refine congrArg
        (fun l => Reading.reporting { (preamble kind doc v s).ast with endpoints := l } _ []) empty
  | some paths =>
    have here : operations doc = paths.flatMap operationsUnder := by rw [operations, listed]; rfl
    have gathers := (Progress.Gathers.start (s := s) empty).addPaths doc v paths
    rw [List.nil_append, ← here] at gathers
    refine ⟨_, gathers.others, ?_⟩
    rw [← firsts, ← gathers.ast, ← gathers.dangling]
    rfl

/-- **A request for a document is answered with a description of it.** -/
theorem describes_of_opens [Grammars] (now : Timestamp) {q : ReadRequest} {doc : Value}
    {v : Version} (h : Opens q doc v) :
    ∃ a, Describes doc v (.ofConfig q.config) (Registry.defaults.read now q) a := by
  obtain ⟨kind, text, document, tag, contents, opened⟩ := h
  obtain ⟨ws, others, done⟩ := read_eq_reporting opened kind (.ofConfig q.config)
  have reader : kind.read text (.ofConfig q.config) = read kind text (.ofConfig q.config) := by
    rcases document with rfl | rfl <;> rfl
  rw [Registry.read_of_textOf tag contents, reader, done, Registry.finish_reporting]
  have lost (reference : String) : reference ∈ sortedNames
      (((operations doc).map (Operation.build doc v)).flatMap Built.dangling) ↔
        Lost doc v reference := by
    simp only [mem_sortedNames, List.mem_flatMap, List.mem_map, exists_exists_and_eq_and, Lost]
  generalize sortedNames (((operations doc).map (Operation.build doc v)).flatMap Built.dangling) =
    dangling at lost ⊢
  refine ⟨_, rfl, rfl, get?_preamble kind doc v _, fun n => ?_, ?_, fun reference => ?_⟩
  · rw [mem_sortedNames, List.mem_append, Ast.mem_unresolvedNames_iff, List.mem_map]
    simp only [lost]
    rfl
  · simp [Ast.markUnresolved, Ast.stamp]
  · simp only [List.mem_append, List.mem_map]
    constructor
    · rintro ((other | ⟨r, mem, same⟩) | ⟨n, -, same⟩)
      · exact absurd rfl (others _ other)
      · exact (lost reference).1 (danglingWarning_injective same ▸ mem)
      · exact absurd same.symm (danglingWarning_ne_unresolvedWarning reference n)
    · exact fun led => .inl (.inr ⟨reference, (lost reference).2 led, rfl⟩)

/-- The request for a text as a document. -/
def requestFor (text : String) : ReadRequest := ⟨"openapi", .inline (Bytes.ofString text), none⟩

lemma opens_requestFor {text : String} {doc : Value} {v : Version}
    (opened : open? text.toList = .ok (doc, v)) : Opens (requestFor text) doc v := by
  refine ⟨.openApi, text.toList, .inl rfl, rfl, ?_, opened⟩
  simp only [Registry.textOf, requestFor, Source.bytes?, Bytes.decode_ofString]

end ApiCanon.OpenApi
