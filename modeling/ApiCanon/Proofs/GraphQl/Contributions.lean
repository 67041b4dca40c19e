import ApiCanon.GraphQl.Reader
import ApiCanon.Proofs.Collection.SortedMap
import ApiCanon.Proofs.GraphQl.Names
import ApiCanon.Proofs.Source.DraftRuns

/-!
# What definitions bring

The description that is read from a document is told from its definitions (`contents_of_document`).
A definition of a root type brings endpoints, one for each field; the endpoints of the description
are the first ones of their keys, and each later one leaves a warning.  Another definition brings a
schema.  The schema of a name begins with what the first definition of that name brings; of what the
others bring only the properties from extensions of objects are added.
-/

namespace ApiCanon.GraphQl

/-! ## Fields of roots -/

/-- The verb of the endpoints that a definition brings, if it is one of a root type. -/
def Definition.rootVerb? (roots : Roots) : Definition → Option Method
  | .object kind name _ _ _ _ => if kind = .type then roots.lookup name else none
  | _ => none

/-- Fields with each of some verbs. -/
def fieldsFor (verbs : List Method) (fields : List Field) : List (Method × Field) :=
  verbs.flatMap fun m => fields.map (m, ·)

lemma fieldsFor_singleton (m : Method) (fields : List Field) :
    fieldsFor [m] fields = fields.map (m, ·) := List.append_nil _

/-- The fields that a definition brings endpoints for, with the verbs of these. -/
def Definition.rootFields (roots : Roots) (d : Definition) : List (Method × Field) :=
  fieldsFor (d.rootVerb? roots).toList d.fields

/-- The fields of root types, in the order of the document. -/
def rootFields (roots : Roots) (ds : List Definition) : List (Method × Field) :=
  ds.flatMap (Definition.rootFields roots)

/-- The key of the endpoint that a field stands for. -/
def fieldKey (x : Method × Field) : EndpointKey := ⟨x.1, x.2.name⟩

/-- The endpoint that a field of a root type stands for, under some settings. -/
def rootEndpoint (s : Settings) (scalars : List String) (x : Method × Field) : Endpoint :=
  s.finish (fieldEndpoint scalars x.1 x.2)

lemma key_rootEndpoint (s : Settings) (scalars : List String) (x : Method × Field) :
    (rootEndpoint s scalars x).key = fieldKey x := s.key_finish _

/-- The warning that a field is one of a key that is taken. -/
def duplicateField (x : Method × Field) : Issue :=
  ⟨.duplicateEndpoint, "Duplicate root field " ++ (fieldKey x).text, some x.2.line⟩

/-- The warnings about endpoints among others. -/
def endpointWarnings (ws : List Issue) : List Issue :=
  ws.filter fun w => w.kind = .duplicateEndpoint

/-! ## Schemas -/

/-- The name of the type that is defined. -/
def Definition.name? : Definition → Option String
  | .object _ name _ _ _ _ => some name
  | .enum name _ _ => some name
  | .union name _ => some name
  | .scalar name => some name
  | .roots _ => none

def Definition.description? : Definition → Option String
  | .object _ _ description _ _ _ => description
  | .enum _ description _ => description
  | .union _ description => description
  | .scalar _ => none
  | .roots _ => none

/-- The values of an enumeration. -/
def Definition.values : Definition → List String
  | .enum _ _ values => values
  | _ => []

/-- Whether a definition stands for a schema. -/
def Definition.isSchema (roots : Roots) (d : Definition) : Bool :=
  match d with
  | .object _ _ _ _ _ _ => (d.rootVerb? roots).isNone
  | .enum _ _ _ => true
  | .union _ _ => true
  | .scalar _ => false
  | .roots _ => false

/-- The property that a field stands for. -/
def property (scalars : List String) (f : Field) : Property :=
  ⟨typeRefOf scalars f.type, nonEmpty f.description, f.type.isNonNull⟩

/-- The property of a name that the fields of a definition give; of several the last one counts. -/
def Definition.property? (scalars : List String) (name : String) (d : Definition) :
    Option Property :=
  (d.fields.reverse.find? fun f => f.name == name).map (property scalars)

/-- The schema of its name that a definition stands for. -/
def Definition.toSchema (scalars : List String) (name : String) (d : Definition) : Schema where
  name := name
  description := nonEmpty d.description?
  properties := .ofList (d.fields.map fun f => (f.name, property scalars f))
  enumValues := d.values

/-- Whether a definition adds its fields to those of a schema that is there. -/
def Definition.adds : Definition → Bool
  | .object _ _ _ _ extension _ => extension
  | _ => false

/-- The schema of a name that a definition brings, and whether its properties are added to one that
is there. -/
def Definition.brings? (roots : Roots) (scalars : List String) (name : String) (d : Definition) :
    Option (Bool × Schema) :=
  if d.isSchema roots = true ∧ d.name? = some name then some (d.adds, d.toSchema scalars name)
  else none

/-- The schemas of a name that definitions bring. -/
def brought (roots : Roots) (scalars : List String) (name : String) (ds : List Definition) :
    List (Bool × Schema) :=
  ds.filterMap (Definition.brings? roots scalars name)

/-- The schema with the properties of another one added. -/
def withProperties (y x : Schema) : Schema :=
  { y with properties := x.properties.entries.foldl (fun m (k, v) => m.insert k v) y.properties }

/-- The schema after another one of its name. -/
def merged (y : Schema) (b : Bool × Schema) : Schema := if b.1 then withProperties y b.2 else y

/-- What the schemas of one name come to. -/
def assembled : List (Bool × Schema) → Option Schema
  | [] => none
  | b :: rest => some (rest.foldl merged b.2)

lemma assembled_concat (l : List (Bool × Schema)) (b : Bool × Schema) :
    assembled (l ++ [b]) = some ((assembled l).elim b.2 (merged · b)) := by
  cases l with
  | nil => rfl
  | cons a l =>
    rw [List.cons_append, assembled, List.foldl_append]
    rfl

section Properties

variable {scalars : List String}

lemma get?_toSchema (name : String) (d : Definition) (k : String) :
    (d.toSchema scalars name).properties.get? k = d.property? scalars k :=
  SortedMap.get?_ofList_map Field.name (property scalars) d.fields k

/-- A property is that of a field. -/
lemma exists_field_of_property? {d : Definition} {k : String} {p : Property}
    (found : d.property? scalars k = some p) :
    ∃ f ∈ d.fields, f.name = k ∧ property scalars f = p := by
  obtain ⟨f, hf, made⟩ := Option.map_eq_some_iff.1 found
  have here := List.find?_some hf
  exact ⟨f, List.mem_reverse.1 (List.mem_of_find?_eq_some hf), beq_iff_eq.1 here, made⟩

lemma exists_property? (scalars : List String) {d : Definition} {k : String}
    (mem : k ∈ d.fields.map Field.name) : ∃ p, d.property? scalars k = some p := by
  obtain ⟨f, hf, rfl⟩ := List.mem_map.1 mem
  have found : (d.fields.reverse.find? fun g => g.name == f.name).isSome :=
    List.find?_isSome.2 ⟨f, List.mem_reverse.2 hf, beq_self_eq_true _⟩
  obtain ⟨g, hg⟩ := Option.isSome_iff_exists.1 found
  exact ⟨property scalars g, Option.map_eq_some_iff.2 ⟨g, hg, rfl⟩⟩

end Properties

lemma foldl_merged_eq (y : Schema) (bs : List (Bool × Schema)) :
    ∃ properties, bs.foldl merged y = { y with properties := properties } := by
  induction bs generalizing y with
  | nil => exact ⟨y.properties, rfl⟩
  | cons b bs ih =>
    rw [List.foldl_cons, merged]
    split_ifs
    · exact ih (withProperties y b.2)
    · exact ih y

/-- A property is that of the last schema that is added with it. -/
lemma get?_foldl_merged (y : Schema) (bs : List (Bool × Schema)) (k : String) :
    (bs.foldl merged y).properties.get? k =
      ((bs.filter Prod.fst).reverse.findSome? fun b => b.2.properties.get? k).or
        (y.properties.get? k) := by
  induction bs using List.reverseRecOn with
  | nil => rfl
  | append_singleton bs b ih =>
    rw [List.foldl_append, List.foldl_cons, List.foldl_nil, List.filter_append,
      List.filter_singleton, merged]
    cases b.1 with
    | true =>
      rw [if_pos rfl, cond_true, List.reverse_concat, List.findSome?_cons, withProperties,
        SortedMap.get?_foldl_insert b.2.properties.nodup_keys, ih]
      change (b.2.properties.get? k).orElse _ = _
      cases b.2.properties.get? k <;> rfl
    | false =>
      rw [if_neg Bool.false_ne_true, cond_false, List.append_nil]
      exact ih

section Search

variable (name : String) (x : Schema)

lemma find?_extendSchema (l : List Schema) :
    (extendSchema x l).find? (fun y => y.name == name) =
      if x.name = name then (l.find? fun y => y.name == name).map (withProperties · x)
      else l.find? fun y => y.name == name := by
  induction l with
  | nil => simp [extendSchema]
  | cons y l ih =>
    rw [extendSchema]
    by_cases same : y.name = x.name
    · rw [if_pos same]
      by_cases here : x.name = name
      · simp [same, here, withProperties]
      · simp [same, here]
    · rw [if_neg same, List.find?_cons, ih, List.find?_cons]
      by_cases here : y.name = name
      · have other : x.name ≠ name := fun there => same (here.trans there.symm)
        simp [here, other]
      · rw [beq_false_of_ne here]

/-- A schema at the end counts if it is the first of its name. -/
lemma find?_concat (l : List Schema) :
    (l ++ [x]).find? (fun y => y.name == name) =
      if x.name = name then
        some ((l.find? fun y => y.name == name).elim x (merged · (false, x)))
      else l.find? fun y => y.name == name := by
  rw [List.find?_append]
  split_ifs with here
  · rw [List.find?_singleton, here, beq_self_eq_true, if_pos rfl]
    cases l.find? fun y => y.name == name <;> rfl
  · rw [List.find?_singleton, beq_false_of_ne here, if_neg Bool.false_ne_true, Option.or_none]

/-- An object is added to the schema of its name as it is told. -/
lemma find?_addObject (p : Progress) (extension : Bool) (line : Nat) :
    (p.addObject x extension line).schemas.find? (fun y => y.name == name) =
      if x.name = name then
        some ((p.schemas.find? fun y => y.name == name).elim x (merged · (extension, x)))
      else p.schemas.find? fun y => y.name == name := by
  unfold Progress.addObject
  split_ifs with known marked here here here
  · rw [List.any_eq_true, ← List.find?_isSome, Option.isSome_iff_exists] at known
    obtain ⟨y, found⟩ := known
    rw [find?_extendSchema, if_pos here, ← here, found]
    simp [merged, marked]
  · rw [find?_extendSchema, if_neg here]
  · rw [List.any_eq_true, ← List.find?_isSome, Option.isSome_iff_exists] at known
    obtain ⟨y, found⟩ := known
    rw [← here, found]
    simp [merged, marked]
  · rfl
  · rw [find?_concat, if_pos here]
    have missing : p.schemas.find? (fun y => y.name == name) = none := by
      rw [List.find?_eq_none, ← here]
      exact fun y hy same => known (List.any_eq_true.2 ⟨y, hy, same⟩)
    rw [missing]
    rfl
  · rw [find?_concat, if_neg here]

end Search

/-! ## Progress -/

/-- The calls that a draft gets for some fields of root types. -/
def fieldCalls (s : Settings) (scalars : List String) (fields : List (Method × Field)) :
    List Draft.Call :=
  .project s.projectName s.projectVersion ::
    fields.map fun x => .endpoint (rootEndpoint s scalars x)

/-- What progress comes to after some fields of root types. -/
structure Progress.Follows (s : Settings) (scalars : List String) (fields : List (Method × Field))
    (p : Progress) : Prop where
  draft : p.draft = (Draft.start SourceKind.graphQl.tag).after (fieldCalls s scalars fields)
  warned : endpointWarnings p.warnings = (latersBy fieldKey fields).map duplicateField

section Progress

variable {s : Settings} {scalars : List String} {fields : List (Method × Field)} {p : Progress}

lemma fieldCalls_concat (s : Settings) (scalars : List String) (fields : List (Method × Field))
    (x : Method × Field) : fieldCalls s scalars (fields ++ [x]) =
      fieldCalls s scalars fields ++ [.endpoint (rootEndpoint s scalars x)] := by
  rw [fieldCalls, List.map_append, ← List.cons_append]
  rfl

lemma endpointsIn_fieldCalls (s : Settings) (scalars : List String)
    (fields : List (Method × Field)) : Draft.endpointsIn (fieldCalls s scalars fields) =
      fields.map (rootEndpoint s scalars) := by
  rw [Draft.endpointsIn, fieldCalls, List.filterMap_cons_none rfl, List.filterMap_map]
  exact congrFun List.filterMap_eq_map fields

lemma Progress.addField_eq (s : Settings) (scalars : List String) (m : Method) (p : Progress)
    (f : Field) : p.addField s scalars m f =
      { p with
        draft := (p.draft.addEndpoint (rootEndpoint s scalars (m, f))).1
        warnings := p.warnings ++ if (p.draft.addEndpoint (rootEndpoint s scalars (m, f))).2 then []
          else [duplicateField (m, f)] } := by
  have warning : (⟨.duplicateEndpoint, "Duplicate root field " ++
      (rootEndpoint s scalars (m, f)).locator, some f.line⟩ : Issue) = duplicateField (m, f) := by
    rw [Endpoint.locator, key_rootEndpoint]
    rfl
  rw [← warning, apply_ite (p.warnings ++ ·), List.append_nil]
  rfl

lemma Progress.Follows.addField (h : p.Follows s scalars fields) (m : Method) (f : Field) :
    (p.addField s scalars m f).Follows s scalars (fields ++ [(m, f)]) := by
  have fresh := Draft.reply_after (fieldCalls s scalars fields)
    (.endpoint (rootEndpoint s scalars (m, f))) SourceKind.graphQl.tag
  rw [← h.draft, Draft.Call.isNew?, endpointsIn_fieldCalls, List.map_map] at fresh
  simp only [Draft.apply, Function.comp_def, key_rootEndpoint, Option.some.injEq] at fresh
  rw [Progress.addField_eq]
  refine ⟨?_, ?_⟩
  · rw [fieldCalls_concat, Draft.after_concat, ← h.draft]
    rfl
  · rw [latersBy_concat, List.map_append, ← h.warned, fresh]
    split_ifs with known <;> simp_all [endpointWarnings, duplicateField]

lemma Progress.Follows.addFields (h : p.Follows s scalars fields) (m : Method) (fs : List Field) :
    (fs.foldl (Progress.addField s scalars m) p).Follows s scalars (fields ++ fs.map (m, ·)) := by
  induction fs generalizing fields p with
  | nil =>
    rw [List.map_nil, List.append_nil]
    exact h
  | cons f fs ih =>
    rw [List.map_cons, List.append_cons]
    exact ih (h.addField m f)

/-- An object that is not a root brings no endpoints. -/
lemma Progress.Follows.addObject (h : p.Follows s scalars fields) (x : Schema) (extension : Bool)
    (line : Nat) : (p.addObject x extension line).Follows s scalars fields := by
  unfold Progress.addObject
  split_ifs
  · exact ⟨h.draft, h.warned⟩
  · refine ⟨h.draft, ?_⟩
    rw [← h.warned]
    simp [endpointWarnings]
  · exact ⟨h.draft, h.warned⟩

/-- A definition of a root is taken apart into its fields. -/
lemma Progress.add_of_root {roots : Roots} {d : Definition} {m : Method}
    (root : d.rootVerb? roots = some m) (s : Settings) (scalars : List String) (p : Progress) :
    p.add s roots scalars d = d.fields.foldl (Progress.addField s scalars m) p := by
  cases d with
  | object kind name description fs extension line =>
    rw [Definition.rootVerb?] at root
    rw [Progress.add, root]
    rfl
  | enum | union | scalar | roots => cases root

lemma Progress.add_object {roots : Roots} {kind : ObjectKind} {name : String}
    {description : Option String} {fs : List Field} {extension : Bool} {line : Nat}
    (plain : (Definition.object kind name description fs extension line).rootVerb? roots = none)
    (s : Settings) (scalars : List String) (p : Progress) :
    p.add s roots scalars (.object kind name description fs extension line) =
      p.addObject (objectSchema scalars name description fs) extension line := by
  rw [Definition.rootVerb?] at plain
  rw [Progress.add, plain]

lemma Progress.Follows.add (h : p.Follows s scalars fields) (roots : Roots) (d : Definition) :
    (p.add s roots scalars d).Follows s scalars (fields ++ d.rootFields roots) := by
  unfold Definition.rootFields
  cases root : d.rootVerb? roots with
  | some m =>
    rw [Progress.add_of_root root, Option.toList_some, fieldsFor_singleton]
    exact h.addFields m d.fields
  | none =>
    rw [Option.toList_none, fieldsFor, List.flatMap_nil, List.append_nil]
    cases d with
    | object =>
      rw [Progress.add_object root]
      exact h.addObject _ _ _
    | enum | union | scalar | roots => exact ⟨h.draft, h.warned⟩

end Progress

lemma schemas_foldl_addField (s : Settings) (scalars : List String) (m : Method) (fs : List Field)
    (p : Progress) : (fs.foldl (Progress.addField s scalars m) p).schemas = p.schemas := by
  induction fs generalizing p with
  | nil => rfl
  | cons f fs ih => exact ih _

/-- The schema of a name after one more definition. -/
lemma find?_add (s : Settings) (roots : Roots) (scalars : List String) (p : Progress)
    (d : Definition) (name : String) :
    (p.add s roots scalars d).schemas.find? (fun y => y.name == name) =
      match d.brings? roots scalars name with
      | none => p.schemas.find? fun y => y.name == name
      | some b => some ((p.schemas.find? fun y => y.name == name).elim b.2 (merged · b)) := by
  unfold Definition.brings?
  cases root : d.rootVerb? roots with
  | some m =>
    rw [Progress.add_of_root root, schemas_foldl_addField]
    cases d with
    | object => simp only [Definition.isSchema, root, Option.isNone_some, Bool.false_eq_true,
        false_and, if_false]
    | enum | union | scalar | roots => cases root
  | none =>
    cases d with
    | object kind n description fs extension line =>
      rw [Progress.add_object root, find?_addObject]
      simp only [Definition.isSchema, root, Option.isNone_none, true_and, Definition.name?,
        Option.some.injEq]
      by_cases here : n = name
      · subst here
        rw [if_pos rfl]
        exact if_pos rfl
      · rw [if_neg here]
        exact if_neg here
    | enum n description | union n description =>
      rw [Progress.add, find?_concat]
      simp only [Definition.isSchema, true_and, Definition.name?, Option.some.injEq]
      by_cases here : n = name
      · subst here
        rw [if_pos rfl]
        exact if_pos rfl
      · rw [if_neg here]
        exact if_neg here
    | scalar | roots => rfl

/-! ## Documents -/

section Run

variable (s : Settings) (roots : Roots) (scalars : List String) (ds : List Definition)

lemma follows_foldl_add {fields : List (Method × Field)} {p : Progress}
    (h : p.Follows s scalars fields) :
    (ds.foldl (Progress.add s roots scalars) p).Follows s scalars
      (fields ++ rootFields roots ds) := by
  induction ds generalizing fields p with
  | nil =>
    rw [rootFields, List.flatMap_nil, List.append_nil]
    exact h
  | cons d ds ih =>
    rw [rootFields, List.flatMap_cons, ← List.append_assoc]
    exact ih (h.add roots d)

lemma brought_concat (name : String) (d : Definition) :
    brought roots scalars name (ds ++ [d]) =
      brought roots scalars name ds ++ (d.brings? roots scalars name).toList := by
  rw [brought, List.filterMap_append]
  refine congrArg (brought roots scalars name ds ++ ·) ?_
  cases brings : d.brings? roots scalars name with
  | none => rw [List.filterMap_cons_none brings]; rfl
  | some b => rw [List.filterMap_cons_some brings]; rfl

/-- Of the schemas that are gathered the first one of a name is what all of them come to. -/
lemma find?_foldl_add {p : Progress} (start : p.schemas = []) (name : String) :
    (ds.foldl (Progress.add s roots scalars) p).schemas.find? (fun y => y.name == name) =
      assembled (brought roots scalars name ds) := by
  induction ds using List.reverseRecOn with
  | nil => rw [List.foldl_nil, start]; rfl
  | append_singleton ds d ih =>
    rw [List.foldl_append, List.foldl_cons, List.foldl_nil, find?_add, ih, brought_concat]
    cases d.brings? roots scalars name with
    | none => rw [Option.toList_none, List.append_nil]
    | some b => rw [Option.toList_some, assembled_concat]

end Run

/-- The warning that a schema is one of a name that is taken, found when all schemas are put
together. -/
def duplicateType (name : String) : Issue := .general .duplicateSchema s!"Duplicate type '{name}'"

/-- The gathered schemas are put into the draft one by one, with a warning for each name that is
taken. -/
lemma foldl_addSchema_eq (xs : List Schema) (d : Draft) (ws : List Issue) :
    ∃ names : List String,
      xs.foldl (fun (d, warnings) x =>
        let (d, fresh) := d.addSchema x
        (d, if fresh then warnings
          else warnings ++ [.general .duplicateSchema s!"Duplicate type '{x.name}'"])) (d, ws) =
        (d.after (xs.map .schema), ws ++ names.map duplicateType) := by
  induction xs generalizing d ws with
  | nil => exact ⟨[], congrArg (d, ·) (List.append_nil ws).symm⟩
  | cons x xs ih =>
    obtain ⟨names, run⟩ := ih (d.addSchema x).1 (if (d.addSchema x).2 then ws
      else ws ++ [duplicateType x.name])
    refine ⟨(if (d.addSchema x).2 then [] else [x.name]) ++ names, run.trans ?_⟩
    split_ifs
    · rfl
    · rw [List.append_assoc]
      rfl

/-- No warning about endpoints is among those about types. -/
lemma endpointWarnings_append_types (ws : List Issue) (names : List String) :
    endpointWarnings (ws ++ names.map duplicateType) = endpointWarnings ws := by
  simp [endpointWarnings, duplicateType, Issue.general]

/-- The calls for the fields of root types and for schemas behind them bring these schemas. -/
lemma schemasIn_calls (s : Settings) (scalars : List String) (fields : List (Method × Field))
    (xs : List Schema) : Draft.schemasIn (fieldCalls s scalars fields ++ xs.map .schema) = xs := by
  have none : Draft.schemasIn (fieldCalls s scalars fields) = [] := by
    rw [Draft.schemasIn, fieldCalls, List.filterMap_cons_none rfl, List.filterMap_map]
    exact List.filterMap_eq_nil_iff.2 fun _ _ => rfl
  rw [Draft.schemasIn, List.filterMap_append, ← Draft.schemasIn, none, List.nil_append,
    List.filterMap_map]
  exact List.filterMap_some

lemma endpointsIn_calls (s : Settings) (scalars : List String) (fields : List (Method × Field))
    (xs : List Schema) : Draft.endpointsIn (fieldCalls s scalars fields ++ xs.map .schema) =
      fields.map (rootEndpoint s scalars) := by
  have none : Draft.endpointsIn (xs.map .schema) = [] := by
    rw [Draft.endpointsIn, List.filterMap_map]
    exact List.filterMap_eq_nil_iff.2 fun _ _ => rfl
  rw [Draft.endpointsIn, List.filterMap_append, ← Draft.endpointsIn, ← Draft.endpointsIn, none,
    List.append_nil, endpointsIn_fieldCalls]

/-- What is read from the definitions of a document. -/
structure Contents (s : Settings) (ds : List Definition) (a : Ast) (ws : List Issue) : Prop where
  /-- Of the fields of root types the first one of each key. -/
  endpoints : a.endpoints = firstsBy Endpoint.key
    ((rootFields (rootsOf ds) ds).map (rootEndpoint s (scalarsOf ds)))
  /-- A warning for each of the others. -/
  warned : endpointWarnings ws =
    (latersBy fieldKey (rootFields (rootsOf ds) ds)).map duplicateField
  schemas : ∀ name, a.schemas.get? name =
    assembled (brought (rootsOf ds) (scalarsOf ds) name ds)

/-- A document is read, and what is read is told from its definitions. -/
theorem contents_of_document {text : List Char} {ds : List Definition}
    (spelled : document text = .ok ds) (s : Settings) :
    ∃ a ws, read text s = .success a ws ∧ Contents s ds a ws := by
  have start : Progress.Follows s (scalarsOf ds) []
      ⟨(Draft.start SourceKind.graphQl.tag).project s.projectName s.projectVersion, [], []⟩ :=
    ⟨rfl, rfl⟩
  have follows := follows_foldl_add s (rootsOf ds) (scalarsOf ds) ds start
  have found := find?_foldl_add s (rootsOf ds) (scalarsOf ds) ds
    (p := ⟨(Draft.start SourceKind.graphQl.tag).project s.projectName s.projectVersion, [], []⟩) rfl
  unfold read
  rw [spelled]
  dsimp only
  generalize ds.foldl (Progress.add s (rootsOf ds) (scalarsOf ds)) _ = p at follows found
  obtain ⟨names, run⟩ := foldl_addSchema_eq p.schemas p.draft p.warnings
  have built : p.draft.after (p.schemas.map .schema) = (Draft.start SourceKind.graphQl.tag).after
      (fieldCalls s (scalarsOf ds) (rootFields (rootsOf ds) ds) ++ p.schemas.map .schema) := by
    rw [follows.draft, Draft.after, Draft.after, ← List.foldl_append]
    rfl
  refine ⟨(p.draft.after (p.schemas.map .schema)).ast, p.warnings ++ names.map duplicateType,
    ?_, ?_, ?_, ?_⟩
  · rw [Progress.addSchemas, run]
  · rw [built, Draft.endpoints_after, endpointsIn_calls]
  · rw [endpointWarnings_append_types, follows.warned]
    rfl
  · intro name
    rw [built, Draft.get?_schemas_after, schemasIn_calls, found]

end ApiCanon.GraphQl
