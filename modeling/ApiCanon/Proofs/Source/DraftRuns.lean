import ApiCanon.Proofs.Diff.Validity
import ApiCanon.Proofs.Source.Drafts
import Mathlib.Data.List.Dedup

/-!
# What a draft comes to

A draft is built by a run of calls, in whatever order and with whatever endpoints and schemas.  What
has come of it is told from the calls alone (`Draft.builds_after`): the first endpoint of each key
in the order of the calls, the first schema of each name, and of the project what was said last.
Whether a call added something is whether what it brings was new at the time
(`Draft.replies_start`).

Comparisons have a check of their own for what a draft is to guarantee.  It lets a draft pass
exactly if no endpoint was ever brought with a blank path (`Draft.fault?_after_eq_none_iff`).
-/

namespace ApiCanon

open Json (Value)

namespace Draft

/-! ## Runs -/

/-- A call of a draft under construction. -/
inductive Call where
  | endpoint (e : Endpoint)
  | schema (x : Schema)
  | project (name version : Option String)
  | extra (key : String) (v : Value)

/-- The draft after a call, and what a call that adds something replies. -/
def apply (d : Draft) : Call → Draft × Option Bool
  | .endpoint e => ((d.addEndpoint e).1, some (d.addEndpoint e).2)
  | .schema x => ((d.addSchema x).1, some (d.addSchema x).2)
  | .project name version => (d.project name version, none)
  | .extra key v => (d.extra key v, none)

/-- The draft after some calls. -/
def after (d : Draft) (calls : List Call) : Draft := calls.foldl (fun d c => (d.apply c).1) d

/-- What some calls reply, one after another. -/
def replies (d : Draft) : List Call → List (Option Bool)
  | [] => []
  | c :: rest => (d.apply c).2 :: (d.apply c).1.replies rest

/-! ## What calls bring -/

namespace Call

def endpoint? : Call → Option Endpoint
  | .endpoint e => some e
  | _ => none

def schema? : Call → Option Schema
  | .schema x => some x
  | _ => none

def projectName? : Call → Option String
  | .project name _ => name
  | _ => none

def projectVersion? : Call → Option String
  | .project _ version => version
  | _ => none

/-- The value that a call keeps under a key. -/
def extra? (key : String) : Call → Option Value
  | .extra k v => if k = key then some v else none
  | _ => none

end Call

/-- The endpoints that calls bring. -/
def endpointsIn (calls : List Call) : List Endpoint := calls.filterMap Call.endpoint?

/-- The schemas that calls bring. -/
def schemasIn (calls : List Call) : List Schema := calls.filterMap Call.schema?

/-- What calls say of something, the last one counting. -/
def lastSaid {α : Type} (tells : Call → Option α) (calls : List Call) : Option α :=
  (calls.filterMap tells).getLast?

/-- Whether a call brings something that no call before has brought: an endpoint of a new key, or a
schema of a new name. -/
def Call.isNew? (before : List Call) : Call → Option Bool
  | .endpoint e => some (decide (e.key ∉ (endpointsIn before).map Endpoint.key))
  | .schema x => some (decide (x.name ∉ (schemasIn before).map Schema.name))
  | .project _ _ => none
  | .extra _ _ => none

variable (d : Draft) (calls : List Call) (c : Call)

lemma after_concat : d.after (calls ++ [c]) = ((d.after calls).apply c).1 := by
  rw [after, List.foldl_append]
  rfl

lemma endpointsIn_concat :
    endpointsIn (calls ++ [c]) = endpointsIn calls ++ c.endpoint?.toList := by
  rw [endpointsIn, List.filterMap_append]
  cases c <;> rfl

lemma schemasIn_concat : schemasIn (calls ++ [c]) = schemasIn calls ++ c.schema?.toList := by
  rw [schemasIn, List.filterMap_append]
  cases c <;> rfl

lemma lastSaid_concat {α : Type} (tells : Call → Option α) :
    lastSaid tells (calls ++ [c]) = (tells c).or (lastSaid tells calls) := by
  rw [lastSaid, List.filterMap_append, List.getLast?_append]
  cases said : tells c <;> simp [said, lastSaid]

/-! ## What a call leaves as it is -/

/-- An endpoint that is brought changes the endpoints at most. -/
lemma ast_addEndpoint (e : Endpoint) :
    ∃ es, (d.addEndpoint e).1.ast = { d.ast with endpoints := es } := by
  unfold addEndpoint
  split_ifs
  · exact ⟨_, rfl⟩
  · exact ⟨_, rfl⟩

/-- A schema that is brought changes the schemas at most. -/
lemma ast_addSchema (x : Schema) :
    ∃ xs, (d.addSchema x).1.ast = { d.ast with schemas := xs } := by
  unfold addSchema
  split_ifs
  · exact ⟨_, rfl⟩
  · exact ⟨_, rfl⟩

/-! ## What runs come to -/

variable (sourceType : String)

/-- The endpoints are the first ones of their keys. -/
theorem endpoints_after : ((start sourceType).after calls).ast.endpoints =
    firstsBy Endpoint.key (endpointsIn calls) := by
  induction calls using List.reverseRecOn with
  | nil => rfl
  | append_singleton calls c ih =>
    rw [after_concat, endpointsIn_concat]
    generalize (start sourceType).after calls = d at ih
    cases c with
    | endpoint e =>
      have known : d.hasEndpoint e.key = true ↔ e.key ∈ (endpointsIn calls).map Endpoint.key := by
        rw [hasEndpoint_iff, keys, ih, mem_map_firstsBy_iff]
      rw [apply, addEndpoint, Call.endpoint?, Option.toList_some, firstsBy_concat]
      simp only [known]
      split_ifs
      · rw [List.append_nil]
        exact ih
      · exact congrArg (· ++ [e]) ih
    | schema x =>
      obtain ⟨xs, added⟩ := d.ast_addSchema x
      rw [apply, added]
      exact ih.trans (congrArg _ (List.append_nil _).symm)
    | project name version => exact ih.trans (congrArg _ (List.append_nil _).symm)
    | extra key v => exact ih.trans (congrArg _ (List.append_nil _).symm)

lemma hasEndpoint_after_iff (k : EndpointKey) :
    ((start sourceType).after calls).hasEndpoint k = true ↔
      k ∈ (endpointsIn calls).map Endpoint.key := by
  rw [hasEndpoint_iff, keys, endpoints_after, mem_map_firstsBy_iff]

/-- The schema of a name is the first one of that name. -/
theorem get?_schemas_after (name : String) :
    ((start sourceType).after calls).ast.schemas.get? name =
      (schemasIn calls).find? fun x => x.name == name := by
  induction calls using List.reverseRecOn with
  | nil => rfl
  | append_singleton calls c ih =>
    rw [after_concat, schemasIn_concat, List.find?_append, ← ih]
    generalize (start sourceType).after calls = d
    cases c with
    | endpoint e =>
      obtain ⟨es, added⟩ := d.ast_addEndpoint e
      rw [apply, added]
      exact Option.or_none.symm
    | schema x =>
      rw [apply, addSchema, Call.schema?, Option.toList_some, hasSchema, SortedMap.contains]
      cases known : d.ast.schemas.get? x.name with
      | some y =>
        rw [Option.isSome_some, if_pos rfl]
        by_cases same : x.name = name
        · rw [← same, known, Option.some_or]
        · simp [same]
      | none =>
        rw [Option.isSome_none, if_neg Bool.false_ne_true, SortedMap.get?_insert]
        by_cases same : name = x.name
        · simp [same, known]
        · simp [same, Ne.symm same]
    | project name version => exact Option.or_none.symm
    | extra key v => exact Option.or_none.symm

lemma name_of_schemas_after {name : String} {x : Schema}
    (found : ((start sourceType).after calls).ast.schemas.get? name = some x) : x.name = name := by
  rw [get?_schemas_after] at found
  have same := List.find?_some found
  exact beq_iff_eq.1 same

lemma hasSchema_after_iff (name : String) :
    ((start sourceType).after calls).hasSchema name = true ↔
      name ∈ (schemasIn calls).map Schema.name := by
  rw [hasSchema, SortedMap.contains, get?_schemas_after, List.find?_isSome]
  simp only [beq_iff_eq, List.mem_map]

/-- What is looked up in the metadata is what was said of it last, if only calls for the project and
for extra values say anything of it. -/
lemma metadata_after {α : Type} (look : Metadata → Option α) (tells : Call → Option α)
    (first : look (start sourceType).ast.metadata = none)
    (endpoint : ∀ e, tells (.endpoint e) = none) (schema : ∀ x, tells (.schema x) = none)
    (project : ∀ (d : Draft) name version, look (d.project name version).ast.metadata =
      (tells (.project name version)).or (look d.ast.metadata))
    (extra : ∀ (d : Draft) key v, look (d.extra key v).ast.metadata =
      (tells (.extra key v)).or (look d.ast.metadata)) :
    look ((start sourceType).after calls).ast.metadata = lastSaid tells calls := by
  induction calls using List.reverseRecOn with
  | nil => exact first
  | append_singleton calls c ih =>
    rw [after_concat, lastSaid_concat, ← ih]
    generalize (start sourceType).after calls = d
    cases c with
    | endpoint e =>
      obtain ⟨es, added⟩ := d.ast_addEndpoint e
      rw [apply, added, endpoint, Option.none_or]
    | schema x =>
      obtain ⟨xs, added⟩ := d.ast_addSchema x
      rw [apply, added, schema, Option.none_or]
    | project name version => exact project d name version
    | extra key v => exact extra d key v

lemma projectName_after : ((start sourceType).after calls).ast.metadata.projectName =
    lastSaid Call.projectName? calls :=
  metadata_after calls sourceType Metadata.projectName _ rfl (fun _ => rfl) (fun _ => rfl)
    (fun _ name _ => by cases name <;> rfl) fun _ _ _ => rfl

lemma projectVersion_after : ((start sourceType).after calls).ast.metadata.projectVersion =
    lastSaid Call.projectVersion? calls :=
  metadata_after calls sourceType Metadata.projectVersion _ rfl (fun _ => rfl) (fun _ => rfl)
    (fun _ _ version => by cases version <;> rfl) fun _ _ _ => rfl

lemma get?_extra_after (key : String) :
    ((start sourceType).after calls).ast.metadata.extra.get? key =
      lastSaid (Call.extra? key) calls := by
  refine metadata_after calls sourceType (·.extra.get? key) _ rfl (fun _ => rfl) (fun _ => rfl)
    (fun _ _ _ => rfl) fun d k v => ?_
  rw [Draft.extra, SortedMap.get?_insert, Call.extra?]
  by_cases same : key = k
  · simp [same]
  · simp [same, Ne.symm same]

/-- No call changes the type of the source, and none says when it was read or that a reference leads
nowhere. -/
lemma untouched_after : ((start sourceType).after calls).ast.metadata.sourceType = sourceType ∧
    ((start sourceType).after calls).ast.metadata.parsedAt = none ∧
    ((start sourceType).after calls).ast.unresolved = false := by
  induction calls using List.reverseRecOn with
  | nil => exact ⟨rfl, rfl, rfl⟩
  | append_singleton calls c ih =>
    rw [after_concat]
    generalize (start sourceType).after calls = d at ih
    cases c with
    | endpoint e =>
      obtain ⟨es, added⟩ := d.ast_addEndpoint e
      rw [apply, added]
      exact ih
    | schema x =>
      obtain ⟨xs, added⟩ := d.ast_addSchema x
      rw [apply, added]
      exact ih
    | project name version => exact ih
    | extra key v => exact ih

/-- A draft holds as many endpoints as keys have been brought. -/
lemma endpointCount_after : ((start sourceType).after calls).endpointCount =
    ((endpointsIn calls).map Endpoint.key).dedup.length := by
  rw [endpointCount, endpoints_after, ← List.length_map (f := Endpoint.key)]
  refine List.Perm.length_eq ?_
  refine (List.perm_ext_iff_of_nodup (nodup_map_firstsBy _ _) (List.nodup_dedup _)).2 fun k => ?_
  rw [mem_map_firstsBy_iff, List.mem_dedup]

/-- A draft can be compared exactly if no endpoint was brought with a blank path. -/
theorem fault?_after_eq_none_iff (side : Side) :
    Diff.fault? side ((start sourceType).after calls).ast = none ↔
      ∀ e ∈ endpointsIn calls, Text.isBlankText e.path = false := by
  rw [Diff.fault?_eq_none_iff]
  constructor
  · intro valid e he
    -- the endpoint that is kept for its key has the same path
    have kept := (mem_map_firstsBy_iff Endpoint.key _ _).2 (List.mem_map_of_mem he)
    obtain ⟨e', he', same⟩ := List.mem_map.1 kept
    rw [← endpoints_after calls sourceType] at he'
    have path : e'.path = e.path := congrArg EndpointKey.path same
    exact path ▸ valid.paths e' he'
  · intro paths
    refine ⟨fun e he => paths e ?_, ?_, fun _ _ => name_of_schemas_after calls sourceType⟩
    · rw [endpoints_after] at he
      exact firstsBy_subset _ _ he
    · rw [endpoints_after]
      exact nodup_map_firstsBy _ _

/-! ## Replies -/

/-- A call that adds something replies whether what it brings is new. -/
lemma reply_after : (((start sourceType).after calls).apply c).2 = c.isNew? calls := by
  cases c with
  | endpoint e =>
    rw [apply, addEndpoint, Call.isNew?]
    simp only [hasEndpoint_after_iff]
    split_ifs with known <;> simp [known]
  | schema x =>
    rw [apply, addSchema, Call.isNew?]
    simp only [hasSchema_after_iff]
    split_ifs with known <;> simp [known]
  | project name version => rfl
  | extra key v => rfl

lemma replies_after (before : List Call) : ((start sourceType).after before).replies calls =
    calls.mapIdx fun n c => c.isNew? (before ++ calls.take n) := by
  induction calls generalizing before with
  | nil => rfl
  | cons c rest ih =>
    rw [replies, reply_after, ← after_concat, ih, List.mapIdx_cons, List.take_zero,
      List.append_nil]
    simp only [List.take_succ_cons, List.append_assoc, List.singleton_append]

/-- What a draft tells of the calls that have built it. -/
structure Builds (d : Draft) : Prop where
  /-- The endpoints are those whose key no endpoint before them had, in the order of the calls. -/
  endpoints : d.ast.endpoints = firstsBy Endpoint.key (endpointsIn calls)
  endpointCount : d.endpointCount = ((endpointsIn calls).map Endpoint.key).dedup.length
  /-- The schema of a name is the first one that was brought, and has this name. -/
  schemas : ∀ name, d.ast.schemas.get? name = (schemasIn calls).find? fun x => x.name == name
  named : ∀ name x, d.ast.schemas.get? name = some x → x.name = name
  hasSchema : ∀ name, d.hasSchema name = true ↔ name ∈ (schemasIn calls).map Schema.name
  projectName : d.ast.metadata.projectName = lastSaid Call.projectName? calls
  projectVersion : d.ast.metadata.projectVersion = lastSaid Call.projectVersion? calls
  extra : ∀ key, d.ast.metadata.extra.get? key = lastSaid (Call.extra? key) calls
  sourceType : d.ast.metadata.sourceType = sourceType
  parsedAt : d.ast.metadata.parsedAt = none
  unresolved : d.ast.unresolved = false
  /-- It can be compared exactly if no endpoint was brought with a blank path. -/
  comparable : ∀ side, Diff.fault? side d.ast = none ↔
    ∀ e ∈ endpointsIn calls, Text.isBlankText e.path = false

/-- **A draft tells the calls that have built it**, whatever they are, and so after every one of
them; and each call replies whether it brought something new. -/
theorem builds_after : Builds calls sourceType ((start sourceType).after calls) ∧
    (start sourceType).replies calls = calls.mapIdx fun n c => c.isNew? (calls.take n) := by
  obtain ⟨source, parsedAt, unresolved⟩ := untouched_after calls sourceType
  refine ⟨?_, replies_after calls sourceType []⟩
  exact
    { endpoints := endpoints_after calls sourceType
      endpointCount := endpointCount_after calls sourceType
      schemas := get?_schemas_after calls sourceType
      named := fun _ _ => name_of_schemas_after calls sourceType
      hasSchema := hasSchema_after_iff calls sourceType
      projectName := projectName_after calls sourceType
      projectVersion := projectVersion_after calls sourceType
      extra := get?_extra_after calls sourceType
      sourceType := source
      parsedAt := parsedAt
      unresolved := unresolved
      comparable := fault?_after_eq_none_iff calls sourceType }

end Draft

end ApiCanon
