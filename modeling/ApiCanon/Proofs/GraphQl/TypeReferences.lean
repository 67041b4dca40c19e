import ApiCanon.Proofs.Diff.Narrowing
import ApiCanon.Proofs.GraphQl.Contributions
import ApiCanon.Proofs.Source.Validity

/-!
# References of written types

A type that a document defines is referred to by its name, wherever it is used: as the type of a
field that becomes an endpoint, of an argument of such a field, or of a field that becomes a
property (`declared_types_referenced`).  The reference has as many lists around the name as the
written type.  So the schema is reached from the endpoints that use it, and a comparison with
another description breaks these if the schema accepts less there (`SeesNarrowing`).

Two kinds of names are not referred to although a type of the name may be defined: those of custom
scalars, and those that are a common name of a primitive, like `File` or `Object`
(`not_referenced_of_primitive`).
-/

namespace ApiCanon.GraphQl

open Diff (Reaches LeadsTo Narrows narrowedDifference)
open Relation (ReflTransGen)

/-! ## Written types -/

/-- The name inside of a written type. -/
def TypeExpr.name : TypeExpr → String
  | .named n => n
  | .list t => t.name
  | .nonNull t => t.name

/-- The number of lists around the name of a written type. -/
def TypeExpr.lists : TypeExpr → Nat
  | .named _ => 0
  | .list t => t.lists + 1
  | .nonNull t => t.lists

/-- A name of a type that the document defines with a schema, and which is not that of a custom
scalar. -/
structure Declared (ds : List Definition) (n : String) : Prop where
  schema : ∃ d ∈ ds, d.name? = some n ∧ d.isSchema (rootsOf ds) = true
  noScalar : n ∉ scalarsOf ds

/-- A declared name that no primitive has. -/
structure NamesSchema (ds : List Definition) (n : String) : Prop extends Declared ds n where
  noPrimitive : primitiveOf? n = none

/-- A type refers to the name in a written one, inside of as many lists. -/
def ByName (t : TypeExpr) (r : TypeRef) : Prop :=
  r = TypeRef.nested t.lists (.named t.name) ∧ r.referencedName? = some t.name

/-- If a written type names a declared one, the type that it stands for refers to the name, unless
this is one of a primitive. -/
def Faithful (ds : List Definition) (t : TypeExpr) (r : TypeRef) : Prop :=
  Declared ds t.name → (ByName t r ↔ primitiveOf? t.name = none)

lemma Faithful.byName {ds : List Definition} {t : TypeExpr} {r : TypeRef} (h : Faithful ds t r)
    (names : NamesSchema ds t.name) : ByName t r :=
  (h names.toDeclared).2 names.noPrimitive

lemma typeRefOf_eq_nested (scalars : List String) (t : TypeExpr) :
    typeRefOf scalars t = TypeRef.nested t.lists (typeRefOf scalars (.named t.name)) := by
  induction t with
  | named n => rw [TypeExpr.lists, TypeExpr.name, TypeRef.nested]
  | list t ih => exact congrArg TypeRef.array ih
  | nonNull t ih => exact ih

lemma referencedName?_nested (lists : Nat) (r : TypeRef) :
    (TypeRef.nested lists r).referencedName? = r.referencedName? := by
  induction lists with
  | zero => rfl
  | succ lists ih => exact ih

lemma faithful_typeRefOf (ds : List Definition) (t : TypeExpr) :
    Faithful ds t (typeRefOf (scalarsOf ds) t) := by
  intro declared
  rw [typeRefOf_eq_nested]
  cases primitive : primitiveOf? t.name with
  | some p =>
    have inside : typeRefOf (scalarsOf ds) (.named t.name) = .primitive p := by
      rw [typeRefOf, primitive]
    refine iff_of_false (fun byName => ?_) nofun
    have name := byName.2
    rw [inside, referencedName?_nested] at name
    cases name
  | none =>
    have inside : typeRefOf (scalarsOf ds) (.named t.name) = .named t.name := by
      have unlisted := mt List.contains_iff_mem.1 declared.noScalar
      rw [typeRefOf, primitive]
      exact if_neg unlisted
    refine iff_of_true ⟨?_, ?_⟩ rfl
    · rw [inside]
    · rw [inside, referencedName?_nested, TypeRef.referencedName?]

/-! ## Endpoints of fields -/

/-- The types of an endpoint are those of a field. -/
structure OfField (ds : List Definition) (f : Field) (e : Endpoint) : Prop where
  arguments : List.Forall₂ (fun a p => p.name = a.name ∧ Faithful ds a.type p.schema) f.arguments
    e.parameters
  type : ∃ r t, e.responses = [r] ∧ r.schema = some t ∧ Faithful ds f.type t

lemma ofField_rootEndpoint (s : Settings) (ds : List Definition) (x : Method × Field) :
    OfField ds x.2 (rootEndpoint s (scalarsOf ds) x) := by
  obtain ⟨tags, finished⟩ := s.finish_eq (fieldEndpoint (scalarsOf ds) x.1 x.2)
  rw [rootEndpoint, finished]
  refine ⟨?_, _, _, rfl, rfl, faithful_typeRefOf ds _⟩
  refine List.forall₂_map_right_iff.2 (List.forall₂_same.2 fun a _ => ?_)
  exact ⟨rfl, faithful_typeRefOf ds _⟩

/-- A field uses a type by its own type or by that of an argument. -/
def Field.Uses (f : Field) (n : String) : Prop :=
  f.type.name = n ∨ ∃ a ∈ f.arguments, a.type.name = n

/-- An endpoint refers to the schemas that its field uses. -/
lemma OfField.refers {ds : List Definition} {f : Field} {e : Endpoint} (h : OfField ds f e)
    {n : String} (uses : f.Uses n) (names : NamesSchema ds n) : e.Refers n := by
  rcases uses with rfl | ⟨a, ha, rfl⟩
  · obtain ⟨r, t, only, typed, faithful⟩ := h.type
    have mem : r ∈ e.responses := only ▸ List.mem_singleton.2 rfl
    exact .response r mem t typed ((t.referencedName?_eq_some_iff _).1 (faithful.byName names).2)
  · obtain ⟨p, hp, -, faithful⟩ := exists_of_mem_left h.arguments ha
    exact .parameter p hp ((p.schema.referencedName?_eq_some_iff _).1 (faithful.byName names).2)

/-! ## Narrowing -/

/-- A comparison with another description that has the endpoint tells that it breaks if the schema
of a name accepts less there, and mentions the schema. -/
def SeesNarrowing (a : Ast) (e : Endpoint) (n : String) : Prop :=
  ∀ (o : DiffOptions) (b : Ast) (f : Endpoint), Diff.fault? .new b = none → f ∈ b.endpoints →
    f.key = e.key → Narrows o a.schemas b.schemas n →
    ∃ r, diff o a b = .ok r ∧ ∃ c ∈ r.changes, c.key? = some e.key ∧ c.kind = .breaking ∧
      ∃ ds, c.differences = some ds ∧ narrowedDifference n ∈ ds

lemma seesNarrowing_of_reaches {a : Ast} (valid : a.Valid) {e : Endpoint} (he : e ∈ a.endpoints)
    {n : String} (reaches : Reaches a.schemas e n) : SeesNarrowing a e n := by
  intro o b f passes hf key narrows
  have validNew := (Diff.fault?_eq_none_iff .new b).1 passes
  have breaks := (Diff.hasBreaking_endpointDifferences_iff o a.schemas b.schemas e f).2
    (.inr ⟨n, reaches, narrows⟩)
  obtain ⟨c, made⟩ := Diff.exists_rollup
    (fun kind text ds => ⟨kind, f.path, some f.method, text, some ds⟩) breaks.ne_nil
  obtain ⟨hc, about⟩ := (Diff.mem_changes_iff_of_shared o valid validNew he hf key.symm c).2 made
  obtain ⟨-, rolled⟩ := Diff.endpointRollup_eq_some made
  refine ⟨_, Diff.diff_of_valid o valid validNew, c, hc, key ▸ about,
    rolled.kind_eq_breaking_iff.2 breaks, _, rolled.record, ?_⟩
  rw [Diff.endpointDifferences_eq]
  refine List.mem_append_right _ (List.mem_map_of_mem ?_)
  exact (Diff.mem_mentioned_iff o a.schemas b.schemas e n).2 ⟨reaches, narrows⟩

/-- A document is read as a description that can be compared. -/
lemma valid_of_read {text : List Char} {s : Settings} {a : Ast} {ws : List Issue}
    (found : read text s = .success a ws) : a.Valid := by
  have ast : (SourceKind.graphQl.read text s).ast = some a := congrArg Reading.ast found
  exact (SourceKind.valid_read_iff ast).2 fun document => document.1.elim nofun nofun

/-! ## Properties -/

lemma mem_brought_iff {roots : Roots} {scalars : List String} {name : String}
    {ds : List Definition} {b : Bool × Schema} : b ∈ brought roots scalars name ds ↔
      ∃ d ∈ ds, d.isSchema roots = true ∧ d.name? = some name ∧
        b = (d.adds, d.toSchema scalars name) := by
  rw [brought, List.mem_filterMap]
  refine exists_congr fun d => and_congr_right fun _ => ?_
  rw [Definition.brings?]
  constructor
  · intro brings
    split_ifs at brings with here
    exact ⟨here.1, here.2, (Option.some.inj brings).symm⟩
  · rintro ⟨schema, named, rfl⟩
    exact if_pos ⟨schema, named⟩

lemma brought_append_cons {roots : Roots} {scalars : List String} {name : String} {d : Definition}
    {b : Bool × Schema} (brings : d.brings? roots scalars name = some b)
    (before after : List Definition) : brought roots scalars name (before ++ d :: after) =
      brought roots scalars name before ++ b :: brought roots scalars name after := by
  rw [brought, List.filterMap_append, List.filterMap_cons_some brings]
  rfl

/-- Whatever has a property has it from a schema that was brought. -/
lemma exists_mem_of_get?_assembled {l : List (Bool × Schema)} {x : Schema} {k : String}
    {p : Property} (made : assembled l = some x) (found : x.properties.get? k = some p) :
    ∃ b ∈ l, b.2.properties.get? k = some p := by
  cases l with
  | nil => cases made
  | cons b rest =>
    obtain rfl := Option.some.inj made
    rw [get?_foldl_merged, Option.or_eq_some_iff] at found
    rcases found with added | ⟨-, own⟩
    · obtain ⟨c, hc, has⟩ := List.exists_of_findSome?_eq_some added
      exact ⟨c, List.mem_cons_of_mem b (List.mem_of_mem_filter (List.mem_reverse.1 hc)), has⟩
    · exact ⟨b, List.mem_cons_self, own⟩

/-- No property is lost of a schema that comes first or is added. -/
lemma exists_get?_assembled {before after : List (Bool × Schema)} {b : Bool × Schema} {k : String}
    (kept : b.1 = true ∨ before = []) (has : (b.2.properties.get? k).isSome) :
    ∃ x, assembled (before ++ b :: after) = some x ∧ (x.properties.get? k).isSome := by
  cases before with
  | nil =>
    refine ⟨_, rfl, ?_⟩
    rw [get?_foldl_merged, Option.isSome_or, has, Bool.or_true]
  | cons c before =>
    rw [List.cons_append]
    refine ⟨_, rfl, ?_⟩
    have added : ((before ++ b :: after).filter Prod.fst).reverse.findSome?
        (fun b => b.2.properties.get? k) |>.isSome := by
      refine List.findSome?_isSome_iff.2 ⟨b, List.mem_reverse.2 (List.mem_filter.2 ⟨?_, ?_⟩), has⟩
      · simp
      · exact kept.resolve_right (List.cons_ne_nil c before)
    rw [get?_foldl_merged, Option.isSome_or, added, Bool.true_or]

/-- A field of the type of a name in a definition that is the first one or adds its fields. -/
def Kept (ds : List Definition) (name : String) (f : Field) : Prop :=
  ∃ before d after, ds = before ++ d :: after ∧ d.isSchema (rootsOf ds) = true ∧
    d.name? = some name ∧ f ∈ d.fields ∧
    (d.adds = true ∨ ∀ c ∈ before, c.isSchema (rootsOf ds) = true → c.name? ≠ some name)

/-- A type has a field of another one, in whatever definition the field is taken from. -/
def TypeUses (ds : List Definition) (m n : String) : Prop :=
  ∃ f, Kept ds m f ∧ f.type.name = n ∧ NamesSchema ds n ∧
    ∀ d ∈ ds, d.isSchema (rootsOf ds) = true → d.name? = some m →
      ∀ g ∈ d.fields, g.name = f.name → g.type = f.type

/-- A property of the schema of a name, with the written type of a field that it comes from. -/
def FromField (ds : List Definition) (name : String) (k : String) (p : Property) : Prop :=
  ∃ d ∈ ds, d.isSchema (rootsOf ds) = true ∧ d.name? = some name ∧
    ∃ f ∈ d.fields, f.name = k ∧ Faithful ds f.type p.type

section Contents

variable {s : Settings} {ds : List Definition} {a : Ast} {ws : List Issue}

lemma Contents.fromField (h : Contents s ds a ws) {name k : String} {x : Schema} {p : Property}
    (there : a.schemas.get? name = some x) (found : x.properties.get? k = some p) :
    FromField ds name k p := by
  rw [h.schemas] at there
  obtain ⟨b, hb, has⟩ := exists_mem_of_get?_assembled there found
  obtain ⟨d, hd, schema, named, rfl⟩ := mem_brought_iff.1 hb
  rw [get?_toSchema] at has
  obtain ⟨f, hf, here, rfl⟩ := exists_field_of_property? has
  exact ⟨d, hd, schema, named, f, hf, here, faithful_typeRefOf ds f.type⟩

lemma Contents.exists_schema (h : Contents s ds a ws) {n : String} (declared : Declared ds n) :
    ∃ x, a.schemas.get? n = some x := by
  obtain ⟨d, hd, named, schema⟩ := declared.schema
  have mem : (d.adds, d.toSchema (scalarsOf ds) n) ∈ brought (rootsOf ds) (scalarsOf ds) n ds :=
    mem_brought_iff.2 ⟨d, hd, schema, named, rfl⟩
  rw [h.schemas]
  cases same : brought (rootsOf ds) (scalarsOf ds) n ds with
  | nil =>
    rw [same] at mem
    cases mem
  | cons b rest => exact ⟨_, rfl⟩

lemma Contents.exists_property (h : Contents s ds a ws) {name : String} {f : Field}
    (kept : Kept ds name f) :
    ∃ x p, a.schemas.get? name = some x ∧ x.properties.get? f.name = some p := by
  obtain ⟨before, d, after, split, schema, named, hf, first⟩ := kept
  have brings : d.brings? (rootsOf ds) (scalarsOf ds) name =
      some (d.adds, d.toSchema (scalarsOf ds) name) := if_pos ⟨schema, named⟩
  have parts := (congrArg (brought (rootsOf ds) (scalarsOf ds) name) split).trans
    (brought_append_cons brings before after)
  have front : d.adds = true ∨ brought (rootsOf ds) (scalarsOf ds) name before = [] := by
    refine first.imp_right fun alone => List.filterMap_eq_nil_iff.2 fun c hc => ?_
    exact if_neg fun here => alone c hc here.1 here.2
  have has : ((d.toSchema (scalarsOf ds) name).properties.get? f.name).isSome := by
    obtain ⟨p, own⟩ := exists_property? (scalarsOf ds) (List.mem_map_of_mem hf)
    rw [get?_toSchema, own]
    rfl
  obtain ⟨x, there, found⟩ : ∃ x, a.schemas.get? name = some x ∧
      (x.properties.get? f.name).isSome := by
    rw [h.schemas, parts]
    exact exists_get?_assembled front has
  obtain ⟨p, found⟩ := Option.isSome_iff_exists.1 found
  exact ⟨x, p, there, found⟩

/-- Where a type has a field of another one in all its definitions, its schema leads to the
other. -/
lemma Contents.leadsTo (h : Contents s ds a ws) {m n : String} (uses : TypeUses ds m n) :
    LeadsTo a.schemas m n := by
  obtain ⟨f, kept, rfl, names, same⟩ := uses
  obtain ⟨x, p, there, found⟩ := h.exists_property kept
  obtain ⟨d, hd, schema, named, g, hg, here, faithful⟩ := h.fromField there found
  rw [same d hd schema named g hg here] at faithful
  have byName := (faithful.byName names).2
  exact ⟨x, there, f.name, p, found, (p.type.referencedName?_eq_some_iff _).1 byName⟩

end Contents

/-! ## Documents -/

/-- An endpoint of a description is that of a field of a root type, refers to what the field uses,
and sees the schemas narrowed that it uses, by way of others too. -/
structure Represents (ds : List Definition) (a : Ast) (x : Method × Field) (e : Endpoint) :
    Prop where
  key : e.key = fieldKey x
  types : OfField ds x.2 e
  narrowing : ∀ first n, x.2.Uses first → NamesSchema ds first →
    ReflTransGen (TypeUses ds) first n → SeesNarrowing a e n

/-- A description that is read from a document refers to the types of the document by name. -/
structure References (ds : List Definition) (a : Ast) : Prop where
  schemas : ∀ n, Declared ds n → ∃ x, a.schemas.get? n = some x
  /-- The endpoints are those of the fields of root types, of several of one key of the first. -/
  endpoints : List.Forall₂ (Represents ds a) (firstsBy fieldKey (rootFields (rootsOf ds) ds))
    a.endpoints
  properties : ∀ name x k p, a.schemas.get? name = some x → x.properties.get? k = some p →
    FromField ds name k p
  kept : ∀ name f, Kept ds name f →
    ∃ x p, a.schemas.get? name = some x ∧ x.properties.get? f.name = some p

/-- **Declared types are referred to by name.**  Every document is read as a description in which
each declared type has a schema.  Each argument of the field of a root type, the field itself and
each property has a type that refers to the name in its written type, inside of as many lists, if
this name is declared and exactly unless it is a common name of a primitive.  So if a schema accepts
less in another description, the comparison with this tells it for every endpoint that uses the
schema. -/
theorem declared_types_referenced {text : List Char} {ds : List Definition}
    (spelled : document text = .ok ds) (s : Settings) :
    ∃ a ws, read text s = .success a ws ∧ References ds a := by
  obtain ⟨a, ws, found, contents⟩ := contents_of_document spelled s
  have valid := valid_of_read found
  have represents : ∀ x, rootEndpoint s (scalarsOf ds) x ∈ a.endpoints →
      Represents ds a x (rootEndpoint s (scalarsOf ds) x) := by
    intro x mem
    have types := ofField_rootEndpoint s ds x
    refine ⟨key_rootEndpoint s _ x, types, fun first n uses names chain => ?_⟩
    have leads := chain.lift id fun _ _ => contents.leadsTo
    exact seesNarrowing_of_reaches valid mem ⟨first, types.refers uses names, leads⟩
  refine ⟨a, ws, found, fun n => contents.exists_schema, ?_, fun _ _ _ _ => contents.fromField,
    fun _ _ => contents.exists_property⟩
  have firsts := contents.endpoints
  rw [firstsBy_map] at firsts
  simp only [key_rootEndpoint] at firsts
  rw [firsts, List.forall₂_map_right_iff, List.forall₂_same]
  exact fun x hx => represents x (firsts ▸ List.mem_map_of_mem hx)

/-- A field with a type in a list, which has a field of another type. -/
def orders : List Char :=
  "type Query { orders: [Order!] }\ntype Order { line: Line! }\ntype Line { sku: ID }".toList

def ordersField : Field := ⟨none, "orders", [], .list (.nonNull (.named "Order")), false, 1⟩

def lineField : Field := ⟨none, "line", [], .nonNull (.named "Line"), false, 2⟩

def ordersDefinitions : List Definition :=
  [.object .type "Query" none [ordersField] false 1, .object .type "Order" none [lineField] false 2,
    .object .type "Line" none [⟨none, "sku", [], .named "ID", false, 3⟩] false 3]

lemma document_orders : document orders = .ok ordersDefinitions := by decide +kernel

lemma typeUses_line : TypeUses ordersDefinitions "Order" "Line" := by
  have kept : Kept ordersDefinitions "Order" lineField := by
    refine ⟨ordersDefinitions.take 1, _, ordersDefinitions.drop 2, rfl, by decide, rfl,
      List.mem_singleton.2 rfl, .inr ?_⟩
    decide
  have names : NamesSchema ordersDefinitions "Line" :=
    { schema := by decide
      noScalar := by decide
      noPrimitive := by decide +kernel }
  exact ⟨lineField, kept, rfl, names, by decide⟩

theorem declared_types_referenced_orders : document orders = .ok ordersDefinitions ∧
    ∃ a ws e, read orders (.ofConfig none) = .success a ws ∧ a.endpoints = [e] ∧
      e.responses.map Response.schema = [some (.array (.named "Order"))] ∧
      SeesNarrowing a e "Line" := by
  obtain ⟨a, ws, found, references⟩ := declared_types_referenced document_orders (.ofConfig none)
  have fields : firstsBy fieldKey (rootFields (rootsOf ordersDefinitions) ordersDefinitions) =
      [(.query, ordersField)] := by decide
  have names : NamesSchema ordersDefinitions "Order" :=
    { schema := by decide
      noScalar := by decide
      noPrimitive := by decide +kernel }
  have endpoints := references.endpoints
  rw [fields] at endpoints
  obtain ⟨e, rest, represents, others, same⟩ := List.forall₂_cons_left_iff.1 endpoints
  obtain rfl := List.forall₂_nil_left_iff.1 others
  obtain ⟨r, t, only, typed, faithful⟩ := represents.types.type
  refine ⟨document_orders, a, ws, e, found, same, ?_, ?_⟩
  · rw [only, List.map_singleton, typed, (faithful.byName names).1]
    rfl
  · exact represents.narrowing "Order" "Line" (.inl rfl) names (.single typeUses_line)

/-- A field of a type that has a common name of a primitive. -/
def upload : List Char := "type Query { f: File }\ntype File { url: String }".toList

def uploadField : Field := ⟨none, "f", [], .named "File", false, 1⟩

def uploadDefinitions : List Definition :=
  [.object .type "Query" none [uploadField] false 1,
    .object .type "File" none [⟨none, "url", [], .named "String", false, 2⟩] false 2]

/-- A declared type is not referred to if it has a common name of a primitive. -/
theorem not_referenced_of_primitive : document upload = .ok uploadDefinitions ∧
    Declared uploadDefinitions "File" ∧
    ∃ a ws e, read upload (.ofConfig none) = .success a ws ∧ a.endpoints = [e] ∧
      e.responses.map Response.schema = [some (.primitive "binary")] ∧
      (TypeRef.primitive "binary").referencedName? ≠ some "File" := by
  have spelled : document upload = .ok uploadDefinitions := by decide +kernel
  have declared : Declared uploadDefinitions "File" :=
    { schema := by decide
      noScalar := by decide }
  obtain ⟨a, ws, found, contents⟩ := contents_of_document spelled (.ofConfig none)
  refine ⟨spelled, declared, a, ws, _, found, contents.endpoints, ?_, nofun⟩
  decide +kernel

end ApiCanon.GraphQl
