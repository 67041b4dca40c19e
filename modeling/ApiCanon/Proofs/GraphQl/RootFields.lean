import ApiCanon.Proofs.Collection.SortedMap
import ApiCanon.Proofs.GraphQl.Contributions
import Mathlib.Algebra.Order.BigOperators.Group.List

/-!
# Fields of root types

Which fields of a document become endpoints (`rootFields_cover`).  Those do whose type is a root; of
two fields of one key the first one counts, and the other one leaves a warning.

The schema blocks of a document declare which types are roots.  Not all that they declare is
honoured: of several blocks only the last one counts, and of several operations of one type only the
last one in it.  The endpoints are those of the declared operations exactly if every declaration of
a type with fields is honoured (`Honoured`), as it is if there is one block, or none, that gives no
type two operations.
-/

namespace ApiCanon.GraphQl

/-! ## Declarations -/

/-- The operations of an API with the verbs of their fields. -/
def operations : List (String × Method) :=
  [("query", .query), ("mutation", .mutation), ("subscription", .subscription)]

/-- The entries of a schema block. -/
def Definition.entries? : Definition → Option (List (String × String))
  | .roots entries => some entries
  | _ => none

/-- The operations with their types that the schema blocks of a document declare, all of them
together; without a block the customary ones. -/
def declaredRoots (ds : List Definition) : List (String × String) :=
  match ds.filterMap Definition.entries? with
  | [] => [("query", "Query"), ("mutation", "Mutation"), ("subscription", "Subscription")]
  | blocks => blocks.flatten

/-- The verbs of the operations that are declared for a type. -/
def declaredVerbs (ds : List Definition) (type : String) : List Method :=
  (operations.filter fun o => (o.1, type) ∈ declaredRoots ds).map Prod.snd

/-- The fields of a definition, for each of the operations that are declared for its type. -/
def Definition.declaredFields (ds : List Definition) : Definition → List (Method × Field)
  | .object .type name _ fields _ _ =>
    fieldsFor (declaredVerbs ds name) fields
  | _ => []

/-- The fields of types with declared operations, in the order of the document. -/
def declaredFields (ds : List Definition) : List (Method × Field) :=
  ds.flatMap (Definition.declaredFields ds)

/-- The fields of every type are read for the operations that are declared for it. -/
def Honoured (ds : List Definition) : Prop :=
  ∀ name description fields extension line,
    Definition.object .type name description fields extension line ∈ ds → fields ≠ [] →
      declaredVerbs ds name = ((rootsOf ds).lookup name).toList

/-! ## Endpoints of fields -/

/-- The endpoints of a description are those of some fields of root types. -/
structure Covers (s : Settings) (scalars : List String) (fields : List (Method × Field)) (a : Ast)
    (ws : List Issue) : Prop where
  keys : ∀ k, k ∈ a.endpoints.map Endpoint.key ↔ k ∈ fields.map fieldKey
  once : (a.endpoints.map Endpoint.key).Nodup
  /-- Of several fields of one key the first one counts. -/
  first : ∀ e ∈ a.endpoints, ∃ x, fields.find? (fun y => fieldKey y == e.key) = some x ∧
    e = rootEndpoint s scalars x
  /-- Each of the others leaves a warning. -/
  warned : (endpointWarnings ws).Perm ((latersBy fieldKey fields).map duplicateField)

/-- The endpoints are those of the root types. -/
lemma Contents.covers {s : Settings} {ds : List Definition} {a : Ast} {ws : List Issue}
    (h : Contents s ds a ws) :
    Covers s (scalarsOf ds) (rootFields (rootsOf ds) ds) a ws where
  keys := by
    intro k
    rw [h.endpoints, mem_map_firstsBy_iff, List.map_map]
    simp only [Function.comp_def, key_rootEndpoint]
  once := by
    rw [h.endpoints]
    exact nodup_map_firstsBy _ _
  first := by
    intro e he
    have found := find?_key_eq_some (h.endpoints ▸ nodup_map_firstsBy _ _) he
    rw [h.endpoints, find?_firstsBy, List.find?_map] at found
    obtain ⟨x, hx, rfl⟩ := Option.map_eq_some_iff.1 found
    refine ⟨x, ?_, rfl⟩
    simpa only [Function.comp_def, key_rootEndpoint] using hx
  warned := List.Perm.of_eq h.warned

/-- Every field has an endpoint or leaves a warning. -/
lemma Covers.length {s : Settings} {scalars : List String} {fields : List (Method × Field)}
    {a : Ast} {ws : List Issue} (h : Covers s scalars fields a ws) :
    a.endpoints.length + (endpointWarnings ws).length = fields.length := by
  have keys : (a.endpoints.map Endpoint.key).Perm ((firstsBy fieldKey fields).map fieldKey) := by
    refine (List.perm_ext_iff_of_nodup h.once (nodup_map_firstsBy _ _)).2 fun k => ?_
    rw [h.keys, mem_map_firstsBy_iff]
  have firsts := keys.length_eq
  have laters := h.warned.length_eq
  rw [List.length_map, List.length_map] at firsts
  rw [List.length_map] at laters
  rw [firsts, laters, length_firstsBy_add]

/-! ## Roots -/

lemma rootsOf_concat (ds : List Definition) (d : Definition) : rootsOf (ds ++ [d]) =
    (d.entries?.map fun es => (es.map fun (o, type) => (type, operationVerb o)).reverse).getD
      (rootsOf ds) := by
  rw [rootsOf, List.foldl_append]
  cases d <;> rfl

/-- Of the schema blocks the last one counts. -/
lemma rootsOf_eq (ds : List Definition) : rootsOf ds =
    ((ds.filterMap Definition.entries?).getLast?.map fun es =>
      (es.map fun (o, type) => (type, operationVerb o)).reverse).getD customaryRoots := by
  induction ds using List.reverseRecOn with
  | nil => rfl
  | append_singleton ds d ih =>
    rw [rootsOf_concat, ih, List.filterMap_append]
    cases entries : d.entries? with
    | none => rw [List.filterMap_cons_none entries, List.filterMap_nil, List.append_nil]; rfl
    | some es =>
      rw [List.filterMap_cons_some entries, List.filterMap_nil, List.getLast?_concat]
      rfl

/-- Whatever is a root has been declared. -/
lemma declared_of_mem_rootsOf {ds : List Definition} {type : String} {m : Method}
    (h : (type, m) ∈ rootsOf ds) : ∃ o, (o, type) ∈ declaredRoots ds ∧ operationVerb o = m := by
  rw [rootsOf_eq] at h
  unfold declaredRoots
  split
  · next none =>
    rw [none] at h
    simp only [customaryRoots, List.getLast?_nil, Option.map_none, Option.getD_none, List.mem_cons,
      Prod.mk.injEq, List.not_mem_nil, or_false] at h
    rcases h with ⟨rfl, rfl⟩ | ⟨rfl, rfl⟩ | ⟨rfl, rfl⟩
    · exact ⟨"query", by simp, rfl⟩
    · exact ⟨"mutation", by simp, rfl⟩
    · exact ⟨"subscription", by simp, rfl⟩
  · next some =>
    have last := List.getLast?_eq_some_getLast some
    rw [last, Option.map_some, Option.getD_some, List.mem_reverse] at h
    obtain ⟨⟨o, type⟩, entry, made⟩ := List.mem_map.1 h
    obtain ⟨rfl, rfl⟩ := Prod.mk.injEq .. ▸ made
    exact ⟨o, List.mem_flatten.2 ⟨_, List.getLast_mem some, entry⟩, rfl⟩

lemma mem_declaredVerbs_iff {ds : List Definition} {type : String} {m : Method} :
    m ∈ declaredVerbs ds type ↔ ∃ o, (o, m) ∈ operations ∧ (o, type) ∈ declaredRoots ds := by
  rw [declaredVerbs, List.mem_map]
  constructor
  · rintro ⟨⟨o, m⟩, mem, rfl⟩
    obtain ⟨known, declared⟩ := List.mem_filter.1 mem
    exact ⟨o, known, of_decide_eq_true declared⟩
  · rintro ⟨o, known, declared⟩
    exact ⟨(o, m), List.mem_filter.2 ⟨known, decide_eq_true declared⟩, rfl⟩

lemma nodup_declaredVerbs (ds : List Definition) (type : String) :
    (declaredVerbs ds type).Nodup := by
  have distinct : (operations.map Prod.snd).Nodup := by decide
  exact distinct.sublist (List.filter_sublist.map Prod.snd)

/-- All declared operations are ones that an API may have. -/
def KnownOperations (ds : List Definition) : Prop :=
  ∀ r ∈ declaredRoots ds, r.1 ∈ operations.map Prod.fst

lemma mem_operations_of_known {o : String} (known : o ∈ operations.map Prod.fst) :
    (o, operationVerb o) ∈ operations := by
  simp only [operations, List.map_cons, List.map_nil, List.mem_cons, List.not_mem_nil,
    or_false] at known
  rcases known with rfl | rfl | rfl <;> simp [operations, operationVerb]

/-- The verb of a root is declared. -/
lemma lookup_sublist_declaredVerbs {ds : List Definition} (known : KnownOperations ds)
    (type : String) : ((rootsOf ds).lookup type).toList.Sublist (declaredVerbs ds type) := by
  cases root : (rootsOf ds).lookup type with
  | none => exact List.nil_sublist _
  | some m =>
    obtain ⟨before, after, same, -⟩ := List.lookup_eq_some_iff.1 root
    have mem : (type, m) ∈ rootsOf ds := by simp [same]
    obtain ⟨o, declared, rfl⟩ := declared_of_mem_rootsOf mem
    exact List.singleton_sublist.2
      (mem_declaredVerbs_iff.2 ⟨o, mem_operations_of_known (known _ declared), declared⟩)

/-! ## Honoured declarations -/

lemma length_fieldsFor (verbs : List Method) (fields : List Field) :
    (fieldsFor verbs fields).length = verbs.length * fields.length := by
  simp [fieldsFor, List.length_flatMap]

/-- Only types have fields that are read for an operation. -/
lemma exists_of_fields {ds : List Definition} {d : Definition}
    (fields : d.rootFields (rootsOf ds) ≠ [] ∨ d.declaredFields ds ≠ []) :
    ∃ name description fields extension line, fields ≠ [] ∧
      d = .object .type name description fields extension line := by
  cases d with
  | object kind name description fs extension line =>
    cases kind with
    | type =>
      refine ⟨name, description, fs, extension, line, ?_, rfl⟩
      rintro rfl
      rcases fields with some | some
      · exact some (by simp [Definition.rootFields, fieldsFor, Definition.fields])
      · exact some (by simp [Definition.declaredFields, fieldsFor])
    | input | interface => exact (fields.elim (· rfl) (· rfl)).elim
  | enum | union | scalar | roots => exact (fields.elim (· rfl) (· rfl)).elim

lemma declaredFields_eq_of_honoured {ds : List Definition} (h : Honoured ds) :
    declaredFields ds = rootFields (rootsOf ds) ds := by
  refine List.flatMap_congr fun d hd => ?_
  by_contra differ
  have fields : d.rootFields (rootsOf ds) ≠ [] ∨ d.declaredFields ds ≠ [] := by
    by_contra none
    rw [not_or, not_not, not_not] at none
    exact differ (none.2.trans none.1.symm)
  obtain ⟨name, description, fs, extension, line, some, rfl⟩ := exists_of_fields fields
  exact differ (congrArg (fieldsFor · fs) (h name description fs extension line hd some))

/-- If parts are at most as long as others and all of them together are as long, each part is. -/
lemma length_eq_of_flatMap {α β : Type} {f g : α → List β} {l : List α}
    (le : ∀ a ∈ l, (f a).length ≤ (g a).length)
    (same : (l.flatMap f).length = (l.flatMap g).length) :
    ∀ a ∈ l, (f a).length = (g a).length := by
  induction l with
  | nil => exact nofun
  | cons a l ih =>
    obtain ⟨first, others⟩ := List.forall_mem_cons.1 le
    have rest : (l.flatMap f).length ≤ (l.flatMap g).length := by
      rw [List.length_flatMap, List.length_flatMap]
      exact List.sum_le_sum others
    rw [List.flatMap_cons, List.flatMap_cons, List.length_append, List.length_append] at same
    exact List.forall_mem_cons.2 ⟨by omega, ih others (by omega)⟩

lemma length_rootFields_le {ds : List Definition} (known : KnownOperations ds) (d : Definition) :
    (d.rootFields (rootsOf ds)).length ≤ (d.declaredFields ds).length := by
  by_cases none : d.rootFields (rootsOf ds) = []
  · rw [none]
    exact Nat.zero_le _
  · obtain ⟨name, description, fs, extension, line, -, rfl⟩ := exists_of_fields (.inl none)
    have verbs := (lookup_sublist_declaredVerbs known name).length_le
    calc _ = ((rootsOf ds).lookup name).toList.length * fs.length := length_fieldsFor _ _
      _ ≤ (declaredVerbs ds name).length * fs.length := Nat.mul_le_mul_right _ verbs
      _ = _ := (length_fieldsFor _ _).symm

/-- If no field is lost, the declarations are honoured. -/
lemma honoured_of_length {ds : List Definition} (known : KnownOperations ds)
    (same : (rootFields (rootsOf ds) ds).length = (declaredFields ds).length) : Honoured ds := by
  intro name description fs extension line hd some
  have each := length_eq_of_flatMap (fun d _ => length_rootFields_le known d) same _ hd
  have verbs : ((rootsOf ds).lookup name).toList.length * fs.length =
      (declaredVerbs ds name).length * fs.length :=
    (length_fieldsFor _ _).symm.trans (each.trans (length_fieldsFor _ _))
  have count := Nat.eq_of_mul_eq_mul_right (List.length_pos_iff.2 some) verbs
  exact ((lookup_sublist_declaredVerbs known name).eq_of_length count).symm

/-- A document with at most one schema block, which gives no type two operations, and gives none but
the three operations of an API. -/
structure PlainRoots (ds : List Definition) : Prop where
  single : (ds.filterMap Definition.entries?).length ≤ 1
  types : ((declaredRoots ds).map Prod.snd).Nodup
  known : KnownOperations ds

lemma PlainRoots.lookup_eq {ds : List Definition} (plain : PlainRoots ds) {o type : String}
    (declared : (o, type) ∈ declaredRoots ds) :
    (rootsOf ds).lookup type = some (operationVerb o) := by
  obtain ⟨single, types, -⟩ := plain
  rw [rootsOf_eq]
  unfold declaredRoots at declared types
  match blocks : ds.filterMap Definition.entries? with
  | [] =>
    rw [blocks] at declared
    simp only [List.mem_cons, Prod.mk.injEq, List.not_mem_nil, or_false] at declared
    rcases declared with ⟨rfl, rfl⟩ | ⟨rfl, rfl⟩ | ⟨rfl, rfl⟩ <;> rfl
  | [es] =>
    rw [blocks] at declared types
    simp only [List.flatten_cons, List.flatten_nil, List.append_nil] at declared types
    have distinct : (((es.map fun (o, type) => (type, operationVerb o)).reverse).map
        (·.1)).Nodup := by
      rw [List.map_reverse, List.nodup_reverse, List.map_map]
      exact types
    refine (SortedMap.lookup_eq_some_iff distinct type _).2 (List.mem_reverse.2 ?_)
    exact List.mem_map.2 ⟨(o, type), declared, rfl⟩
  | _ :: _ :: _ =>
    rw [blocks] at single
    simp at single

lemma honoured_of_plain {ds : List Definition} (plain : PlainRoots ds) : Honoured ds := by
  intro name _ _ _ _ _ _
  have roots : declaredVerbs ds name ⊆ ((rootsOf ds).lookup name).toList := by
    intro m hm
    obtain ⟨o, known, declared⟩ := mem_declaredVerbs_iff.1 hm
    have verb : operationVerb o = m := by
      simp only [operations, List.mem_cons, Prod.mk.injEq, List.not_mem_nil, or_false] at known
      rcases known with ⟨rfl, rfl⟩ | ⟨rfl, rfl⟩ | ⟨rfl, rfl⟩ <;> rfl
    rw [plain.lookup_eq declared, verb]
    exact List.mem_singleton.2 rfl
  have fewer := ((nodup_declaredVerbs ds name).subperm roots).length_le
  exact ((lookup_sublist_declaredVerbs plain.known name).eq_of_length_le fewer).symm

/-! ## Documents -/

/-- **The fields of root types become endpoints.**  The endpoints of a document are those of the
fields whose type is a root: one for each verb and name, from the first such field of the document,
with a warning for each of the others.

If every declaration of the schema blocks is honoured, these are the endpoints of all declared
operations; and they are not if one is not, as long as nothing else is declared than the operations
of an API.  Declarations are honoured in a document with at most one schema block that gives no type
two operations. -/
theorem rootFields_cover {text : List Char} {ds : List Definition}
    (spelled : document text = .ok ds) (s : Settings) :
    ∃ a ws, read text s = .success a ws ∧
      Covers s (scalarsOf ds) (rootFields (rootsOf ds) ds) a ws ∧
      (Honoured ds → Covers s (scalarsOf ds) (declaredFields ds) a ws) ∧
      (KnownOperations ds → Covers s (scalarsOf ds) (declaredFields ds) a ws → Honoured ds) ∧
      (PlainRoots ds → Honoured ds) := by
  obtain ⟨a, ws, found, contents⟩ := contents_of_document spelled s
  refine ⟨a, ws, found, contents.covers, fun honoured => ?_, fun known covers => ?_,
    honoured_of_plain⟩
  · rw [declaredFields_eq_of_honoured honoured]
    exact contents.covers
  · exact honoured_of_length known (contents.covers.length.symm.trans covers.length)

/-- A root type with a name of its own, whose extension repeats a field. -/
def shop : List Char :=
  "schema { query: Shop }\ntype Shop { item: Item }\nextend type Shop { item: Int all: Int }".toList

def shopDefinitions : List Definition :=
  [.roots [("query", "Shop")],
    .object .type "Shop" none [⟨none, "item", [], .named "Item", false, 2⟩] false 2,
    .object .type "Shop" none [⟨none, "item", [], .named "Int", false, 3⟩,
      ⟨none, "all", [], .named "Int", false, 3⟩] true 3]

lemma document_shop : document shop = .ok shopDefinitions := by decide +kernel

theorem rootFields_cover_shop : document shop = .ok shopDefinitions ∧
    ∃ a ws, read shop (.ofConfig none) = .success a ws ∧ PlainRoots shopDefinitions ∧
      Covers (.ofConfig none) [] [(.query, ⟨none, "item", [], .named "Item", false, 2⟩),
        (.query, ⟨none, "item", [], .named "Int", false, 3⟩),
        (.query, ⟨none, "all", [], .named "Int", false, 3⟩)] a ws := by
  obtain ⟨a, ws, found, -, covers, -, honoured⟩ := rootFields_cover document_shop (.ofConfig none)
  have plain : PlainRoots shopDefinitions :=
    { single := by decide
      types := by decide
      known := by
        unfold KnownOperations
        decide }
  exact ⟨document_shop, a, ws, found, plain, covers (honoured plain)⟩

/-- A schema in two blocks, of which the second one adds an operation. -/
def splitSchema : List Char :=
  "schema { query: Q }\nextend schema { mutation: M }\ntype Q { a: Int }\ntype M { b: Int }".toList

def splitDefinitions : List Definition :=
  [.roots [("query", "Q")], .roots [("mutation", "M")],
    .object .type "Q" none [⟨none, "a", [], .named "Int", false, 3⟩] false 3,
    .object .type "M" none [⟨none, "b", [], .named "Int", false, 4⟩] false 4]

/-- The operations of the first block are lost. -/
theorem not_covers_of_splitSchema : document splitSchema = .ok splitDefinitions ∧
    declaredRoots splitDefinitions = [("query", "Q"), ("mutation", "M")] ∧
    ∃ a ws, read splitSchema (.ofConfig none) = .success a ws ∧
      ¬Covers (.ofConfig none) [] (declaredFields splitDefinitions) a ws := by
  have spelled : document splitSchema = .ok splitDefinitions := by decide +kernel
  obtain ⟨a, ws, found, contents⟩ := contents_of_document spelled (.ofConfig none)
  refine ⟨spelled, rfl, a, ws, found, fun covers => ?_⟩
  have declared :
      (⟨.query, "a"⟩ : EndpointKey) ∈ (declaredFields splitDefinitions).map fieldKey := by
    decide
  have lost : (⟨.query, "a"⟩ : EndpointKey) ∉
      (rootFields (rootsOf splitDefinitions) splitDefinitions).map fieldKey := by
    decide
  exact lost ((contents.covers.keys _).1 ((covers.keys _).2 declared))

end ApiCanon.GraphQl
