import ApiCanon.Proofs.GraphQl.Names
import ApiCanon.Proofs.OpenApi.Documents
import ApiCanon.Source.Readers

/-!
# Readings of all kinds

What all readers have in common.  A property of all endpoints that a reader builds is one of all
that it describes; each reader has a lemma `read_sound` that says so of any property.  Their
descriptions are those of sound drafts (`SourceKind.read_sound`): keys and names are distinct, and
no object has two fields of one name, for only API documents bring examples of responses.  All other
readers make sure that no path is blank (`SourceKind.read_proper`): routes begin with a slash, and
the fields of a schema document have names.  And of the settings only the project and the default
tag count (`SourceKind.read_raw`), so that two configurations are read alike if they differ in
nothing but the order of fields (`Settings.ofConfig_eq_of_canonicalize`).
-/

namespace ApiCanon

open Json (Value)

variable {E : Endpoint → Prop}

/-! ## Comments -/

namespace DocComment

lemma response_distinct (body : List Char) : (response body).Distinct := by
  refine Response.distinct_of_none ?_
  unfold response
  dsimp only
  split_ifs <;> rfl

lemma apply_proper (b : Block) {e : Endpoint} (h : e.Proper) : (apply b e).Proper where
  distinct := by
    intro r hr
    rcases List.mem_append.1 hr with hr | hr
    · exact h.distinct r hr
    · obtain ⟨t, -, rfl⟩ := List.mem_map.1 hr
      exact response_distinct _
  visible := h.visible

lemma addTypedef_sound (text : List Char) {p : Progress} (h : p.draft.Sound E) (b : Block) :
    (addTypedef text p b).draft.Sound E := by
  unfold addTypedef
  split
  · exact h
  · exact Progress.addSchema_sound h _ _ _

lemma addRoute_sound (text : List Char) {s : Settings}
    (built : ∀ b m path, E (s.complete
      (apply b (Endpoint.plain m (String.ofList (Route.normalizeChars path))))))
    {p : Progress} (h : p.draft.Sound E) (b : Block) : (addRoute text s p b).draft.Sound E := by
  unfold addRoute
  split
  · exact h
  · dsimp only
    split
    · exact h
    · split_ifs
      · exact h
      · exact Progress.addEndpoint_sound h (built b _ _) _

lemma foldl_addTypedef_sound (text : List Char) {p : Progress} (h : p.draft.Sound E)
    (bs : List Block) : (bs.foldl (addTypedef text) p).draft.Sound E :=
  List.foldlRecOn (motive := fun q : Progress => q.draft.Sound E) bs _ h
    fun _ hq b _ => addTypedef_sound text hq b

/-- The endpoints are what the comments make of routes. -/
lemma read_sound (text : List Char) {s : Settings}
    (built : ∀ b m path, E (s.complete
      (apply b (Endpoint.plain m (String.ofList (Route.normalizeChars path)))))) :
    (read text s).Sound E := by
  unfold read
  split
  · exact Reading.failure_sound _
  · refine Reading.success_sound (foldl_addTypedef_sound text ?_ _) _
    exact List.foldlRecOn (motive := fun q : Progress => q.draft.Sound E) _ _
      (Progress.start_sound _ s) fun _ hq b _ => addRoute_sound text built hq b

theorem read_proper (text : List Char) (s : Settings) :
    (read text s).Sound Endpoint.Proper :=
  read_sound text fun b m path => (apply_proper b (Endpoint.plain_proper m path)).complete s

end DocComment

/-! ## Routes -/

namespace Express

lemma addCall_sound (text : List Char) (bs : List DocComment.Block) {s : Settings}
    (bare : ∀ m path, E (s.complete (Endpoint.plain m (String.ofList (Route.normalizeChars path)))))
    (described : ∀ b m path, E (s.complete
      (DocComment.apply b (Endpoint.plain m (String.ofList (Route.normalizeChars path))))))
    {p : Progress} (h : p.draft.Sound E) (c : Call) : (addCall text bs s p c).draft.Sound E := by
  unfold addCall
  dsimp only
  split_ifs
  · exact h
  · exact h
  · split
    · exact h
    · refine Progress.addEndpoint_sound h ?_ _
      split
      · exact described _ _ _
      · exact bare _ _

/-- The endpoints are routes, as they are or with what a comment makes of them. -/
lemma read_sound (text : List Char) {s : Settings}
    (bare : ∀ m path, E (s.complete (Endpoint.plain m (String.ofList (Route.normalizeChars path)))))
    (described : ∀ b m path, E (s.complete
      (DocComment.apply b (Endpoint.plain m (String.ofList (Route.normalizeChars path)))))) :
    (read text s).Sound E := by
  refine Reading.success_sound (DocComment.foldl_addTypedef_sound text ?_ _) _
  exact List.foldlRecOn (motive := fun q : Progress => q.draft.Sound E) _ _
    (Progress.start_sound _ s) fun _ hq c _ => addCall_sound text _ bare described hq c

theorem read_proper (text : List Char) (s : Settings) :
    (read text s).Sound Endpoint.Proper :=
  read_sound text (fun m path => (Endpoint.plain_proper m path).complete s) fun b m path =>
    (DocComment.apply_proper b (Endpoint.plain_proper m path)).complete s

end Express

/-! ## Python -/

namespace Python

lemma addFormal_proper (placeholders : List String) (doc : Docstring) {e : Endpoint}
    (h : e.Proper) (f : Formal) : (addFormal placeholders doc e f).Proper := by
  unfold addFormal
  dsimp only
  split_ifs
  · exact h
  · split
    · exact h
    · split <;> exact ⟨h.distinct, h.visible⟩

lemma endpoint_proper {d : Declaration} (visible : Text.isBlankText d.path = false)
    (method : Method) (name : String) (formals : List Formal) (returns? : Option String)
    (body : List Stmt) : (endpoint d method name formals returns? body).Proper := by
  refine Endpoint.Proper.fillPathParameters ?_ _
  refine List.foldlRecOn (motive := Endpoint.Proper) _ _ ⟨fun r hr => ?_, visible⟩
    fun e he f _ => addFormal_proper _ _ he f
  obtain rfl := List.mem_singleton.1 hr
  exact Response.distinct_of_none rfl

lemma declaration?_visible {prefixes : SortedMap String} {decorator : Decorator}
    {d : Declaration} (h : declaration? prefixes decorator = some d) :
    Text.isBlankText d.path = false := by
  simp only [declaration?, bind, Option.bind_eq_some_iff] at h
  obtain ⟨c, -, parts, -, path, -, h⟩ := h
  split_ifs at h
  all_goals
    obtain ⟨methods, -, made⟩ := Option.bind_eq_some_iff.1 h
    obtain rfl := Option.some.inj made
    exact Route.isBlankText_normalizeChars _

/-- The endpoints of a program are those of functions with declarations. -/
lemma exists_endpoint_of_mem {program : List Stmt} {p : Declaration × List Endpoint}
    (hp : p ∈ declarations program) {e : Endpoint} (he : e ∈ p.2) :
    ∃ prefixes decorator d m name formals returns? body,
      declaration? prefixes decorator = some d ∧ e = endpoint d m name formals returns? body := by
  obtain ⟨statement, -, hp⟩ := List.mem_flatMap.1 hp
  unfold declared at hp
  split at hp
  · obtain ⟨d, hd, rfl⟩ := List.mem_map.1 hp
    obtain ⟨decorator, -, hd⟩ := List.mem_filterMap.1 hd
    obtain ⟨m, -, rfl⟩ := List.mem_map.1 he
    exact ⟨_, decorator, d, m, _, _, _, _, hd, rfl⟩
  · cases hp

lemma declarations_proper (program : List Stmt) :
    ∀ p ∈ declarations program, ∀ e ∈ p.2, e.Proper := by
  intro p hp e he
  obtain ⟨_, _, d, m, _, _, _, _, declared, rfl⟩ := exists_endpoint_of_mem hp he
  exact endpoint_proper (declaration?_visible declared) _ _ _ _ _

lemma foldl_warnUseless_draft (ds : List Declaration) (p : Progress) :
    (ds.foldl warnUseless p).draft = p.draft := by
  induction ds generalizing p with
  | nil => rfl
  | cons d ds ih =>
    rw [List.foldl_cons, ih, warnUseless]
    split_ifs <;> rfl

/-- The endpoints are those of the declarations. -/
lemma read_sound (parse : Parser) (text : List Char) {s : Settings}
    (built : ∀ program, ∀ p ∈ declarations program, ∀ e ∈ p.2, E (s.complete e)) :
    (read parse text s).Sound E := by
  unfold read
  split
  · exact Reading.failure_sound _
  · next statements _ =>
    refine Reading.success_sound ?_ _
    refine List.foldlRecOn (motive := fun q : Progress => q.draft.Sound E) _ _ ?_
      fun q hq p hp => Progress.foldl_addEndpoint_sound hq (built statements p hp) _
    rw [foldl_warnUseless_draft]
    exact Progress.foldl_addSchema_sound (Progress.start_sound _ s) _ _ _

theorem read_proper (parse : Parser) (text : List Char) (s : Settings) :
    (read parse text s).Sound Endpoint.Proper :=
  read_sound parse text fun program p hp e he =>
    (declarations_proper program p hp e he).complete s

end Python

/-! ## Go -/

namespace Go

lemma response?_distinct {body : List Char} {r : Response} (h : response? body = some r) :
    r.Distinct := by
  unfold response? at h
  split at h
  · cases h
  · split_ifs at h
    exact Option.some.inj h ▸ Response.distinct_of_none rfl

namespace Handler

/-- What a line does to an endpoint: its path stays, and a parameter or a response of an annotation
may come behind the others. -/
structure Extends (h h' : Handler) : Prop where
  path : h'.endpoint.path = h.endpoint.path
  parameters : ∀ p ∈ h'.endpoint.parameters,
    p ∈ h.endpoint.parameters ∨ ∃ body, input? body = some (.parameter p)
  responses : ∀ r ∈ h'.endpoint.responses,
    r ∈ h.endpoint.responses ∨ ∃ body, response? body = some r

lemma Extends.of_same {h h' : Handler} (path : h'.endpoint.path = h.endpoint.path)
    (parameters : h'.endpoint.parameters = h.endpoint.parameters)
    (responses : h'.endpoint.responses = h.endpoint.responses) : h.Extends h' :=
  ⟨path, fun _ hp => Or.inl (parameters ▸ hp), fun _ hr => Or.inl (responses ▸ hr)⟩

lemma extends_addInput (h : Handler) {body : List Char} {i : Input} (found : input? body = some i) :
    h.Extends (h.addInput i) := by
  cases i with
  | body schema required description => exact .of_same rfl rfl rfl
  | parameter p =>
    refine ⟨rfl, fun p' hp' => ?_, fun _ => Or.inl⟩
    rcases List.mem_append.1 hp' with hp' | hp'
    · exact Or.inl hp'
    · exact Or.inr ⟨body, List.mem_singleton.1 hp' ▸ found⟩

lemma extends_apply (h : Handler) (line : Nat) (a : Annotation) : h.Extends (h.apply line a) := by
  unfold apply
  dsimp only
  split
  case h_7 =>
    split
    · next found => exact extends_addInput h found
    · exact .of_same rfl rfl rfl
  case h_8 | h_9 | h_10 =>
    split
    · next r found =>
      refine ⟨rfl, fun _ => Or.inl, fun r' hr' => ?_⟩
      rcases List.mem_append.1 hr' with hr' | hr'
      · exact Or.inl hr'
      · exact Or.inr ⟨a.body, List.mem_singleton.1 hr' ▸ found⟩
    · exact .of_same rfl rfl rfl
  all_goals exact .of_same rfl rfl rfl

lemma extends_addLine (h : Handler) (line : Nat) (s : List Char) :
    h.Extends (h.addLine line s) := by
  unfold addLine
  split
  · exact extends_apply h line _
  · split_ifs <;> exact .of_same rfl rfl rfl

lemma Extends.proper {h h' : Handler} (step : h.Extends h') (he : h.endpoint.Proper) :
    h'.endpoint.Proper where
  distinct r hr := (step.responses r hr).elim (he.distinct r) fun ⟨_, found⟩ =>
    response?_distinct found
  visible := step.path ▸ he.visible

end Handler

lemma route?_visible {basePath : Option (List Char)} {body : List Char} {path : String}
    {methods : List Method} (h : route? basePath body = some (path, methods)) :
    Text.isBlankText path = false := by
  simp only [route?, bind, Option.bind_eq_some_iff] at h
  obtain ⟨parts, -, listed, -, made⟩ := h
  split_ifs at made
  obtain ⟨rfl, -⟩ := Prod.mk.inj (Option.some.inj made)
  exact Route.isBlankText_normalizeChars _

/-- The endpoints of comments are routes with what the lines say of them. -/
lemma exists_route_of_mem {basePath : Option (List Char)} {line : Nat} {comments : List (List Char)}
    {e : Endpoint} (he : e ∈ (endpoints basePath line comments).1) :
    ∃ body path methods m, route? basePath body = some (path, methods) ∧
      e = ((commentLines comments).foldl (Handler.addLine line)
        ⟨Endpoint.plain m path, [], none, []⟩).finished := by
  obtain ⟨found, hf, he⟩ := List.mem_flatMap.1 he
  obtain ⟨a, -, rfl⟩ := List.mem_map.1 hf
  unfold routeEndpoints at he
  split at he
  · cases he
  · next path methods hr =>
    obtain ⟨h, hh, rfl⟩ := List.mem_map.1 he
    obtain ⟨m, -, rfl⟩ := List.mem_map.1 hh
    exact ⟨a.body, path, methods, m, hr, rfl⟩

lemma endpoints_proper (basePath : Option (List Char)) (line : Nat)
    (comments : List (List Char)) : ∀ e ∈ (endpoints basePath line comments).1, e.Proper := by
  intro e he
  obtain ⟨body, path, methods, m, hr, rfl⟩ := exists_route_of_mem he
  have built := List.foldlRecOn (motive := fun h : Handler => h.endpoint.Proper)
    (commentLines comments) (Handler.addLine line)
    (b := ⟨Endpoint.plain m path, [], none, []⟩)
    ⟨Endpoint.plain_distinct m path, route?_visible hr⟩
    fun h hq s _ => (h.extends_addLine line s).proper hq
  exact ⟨built.distinct, built.visible⟩

lemma add_sound {s : Settings}
    (built : ∀ basePath line comments, ∀ e ∈ (endpoints basePath line comments).1, E (s.complete e))
    {g : Gathering} (h : g.progress.draft.Sound E) (basePath : Option (List Char)) (i : Item) :
    (g.add s basePath i).progress.draft.Sound E := by
  cases i with
  | comment c =>
    rw [Gathering.add, Gathering.addComment]
    split
    · split_ifs <;> exact h
    · exact h
  | function line =>
    refine Progress.foldl_addEndpoint_sound ?_ (built _ _ _) line
    rw [Progress.foldl_warn_draft]
    exact h
  | types structs line => exact Progress.foldl_addSchema_sound h _ _ _
  | package _ _ => exact h
  | other _ => exact h

lemma startOf_sound (s : Settings) (info : GeneralInfo) (items : List Item) :
    (startOf s info items).draft.Sound E := by
  have project := ((Draft.Sound.start (E := E) SourceKind.go.tag).project info.title
    info.version).project s.projectName s.projectVersion
  unfold startOf
  dsimp only
  split
  · exact project.put _ (.string _)
  · exact project

/-- The endpoints are those of the comments. -/
lemma read_sound (parse : Parser) (text : List Char) {s : Settings}
    (built : ∀ basePath line comments, ∀ e ∈ (endpoints basePath line comments).1,
      E (s.complete e)) : (read parse text s).Sound E := by
  unfold read
  split
  · exact Reading.failure_sound _
  · refine Reading.success_sound ?_ _
    exact List.foldlRecOn (motive := fun g : Gathering => g.progress.draft.Sound E) _ _
      (startOf_sound s _ _) fun _ hg i _ => add_sound built hg _ i

theorem read_proper (parse : Parser) (text : List Char) (s : Settings) :
    (read parse text s).Sound Endpoint.Proper :=
  read_sound parse text fun basePath line comments e he =>
    (endpoints_proper basePath line comments e he).complete s

end Go

/-! ## GraphQL -/

namespace GraphQl

lemma fieldEndpoint_proper (scalars : List String) (m : Method) {f : Field}
    (visible : Text.isBlankText f.name = false) : (fieldEndpoint scalars m f).Proper := by
  refine ⟨fun r hr => ?_, visible⟩
  obtain rfl := List.mem_singleton.1 hr
  exact Response.distinct_of_none rfl

lemma addObject_draft (p : Progress) (x : Schema) (extension : Bool) (line : Nat) :
    (p.addObject x extension line).draft = p.draft := by
  unfold Progress.addObject
  split_ifs <;> rfl

lemma add_sound {s : Settings} (roots : Roots) {scalars : List String} {p : Progress}
    (h : p.draft.Sound E) {d : Definition}
    (built : ∀ m, ∀ f ∈ d.fields, E (s.finish (fieldEndpoint scalars m f))) :
    (p.add s roots scalars d).draft.Sound E := by
  unfold Progress.add
  split
  · split
    · exact List.foldlRecOn (motive := fun q : Progress => q.draft.Sound E) _ _ h
        fun _ hq f hf => hq.addEndpoint (built _ f hf)
    · rw [addObject_draft]
      exact h
  all_goals exact h

lemma addSchemas_sound {p : Progress} (h : p.draft.Sound E) :
    p.addSchemas.1.Sound E :=
  List.foldlRecOn (motive := fun d : Draft × List Issue => d.1.Sound E) _ _ h
    fun _ hd x _ => hd.addSchema x

/-- The endpoints are those of fields, whose names are not blank. -/
lemma read_sound (text : List Char) {s : Settings}
    (built : ∀ scalars m f, Text.isBlankText f.name = false →
      E (s.finish (fieldEndpoint scalars m f))) : (read text s).Sound E := by
  unfold read
  split
  · exact Reading.failure_sound _
  · next ds spelled =>
    refine Reading.success_sound (addSchemas_sound ?_) _
    exact List.foldlRecOn (motive := fun q : Progress => q.draft.Sound E) _ _
      ((Draft.Sound.start _).project _ _) fun _ hq d hd =>
        add_sound _ hq fun m f hf => built _ m f (visible_of_document spelled hd hf)

theorem read_proper (text : List Char) (s : Settings) :
    (read text s).Sound Endpoint.Proper :=
  read_sound text fun scalars m _ visible => (fieldEndpoint_proper scalars m visible).finish s

end GraphQl

/-! ## All kinds -/

namespace SourceKind

/-- Whether a source is an API document. -/
def IsDocument (k : SourceKind) : Prop := k = openApi ∨ k = swagger

variable [Grammars]

/-- All descriptions but those of API documents have paths that are not blank. -/
theorem read_proper {k : SourceKind} (other : ¬k.IsDocument) (text : List Char) (s : Settings) :
    (k.read text s).Sound Endpoint.Proper := by
  cases k with
  | openApi => exact absurd (Or.inl rfl) other
  | swagger => exact absurd (Or.inr rfl) other
  | express => exact Express.read_proper text s
  | jsDoc => exact DocComment.read_proper text s
  | python => exact Python.read_proper _ text s
  | go => exact Go.read_proper _ text s
  | graphQl => exact GraphQl.read_proper text s

/-- The description of every source is sound. -/
theorem read_sound (k : SourceKind) (text : List Char) (s : Settings) :
    (k.read text s).Sound Endpoint.Distinct := by
  by_cases document : k.IsDocument
  · rcases document with rfl | rfl
    · exact OpenApi.read_distinct .openApi text s
    · exact OpenApi.read_distinct .swagger text s
  · exact (read_proper document text s).mono fun e he => he.distinct

/-- No object in the description of a source has two fields of one name. -/
theorem read_distinct (k : SourceKind) (text : List Char) (s : Settings) :
    (k.read text s).Distinct :=
  fun a ha => ⟨(k.read_sound text s a ha).endpoints, (k.read_sound text s a ha).extra⟩

/-- Nothing is read in a configuration but the project and the default tag. -/
theorem read_raw (k : SourceKind) (text : List Char) (s : Settings) (raw : Value) :
    k.read text { s with raw := raw } = k.read text s := by
  cases k <;> rfl

end SourceKind

end ApiCanon
