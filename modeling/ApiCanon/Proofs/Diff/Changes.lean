import ApiCanon.Proofs.Diff.Silence

/-!
# Changes one by one

What a single change of a comparison can be.  A list of differences makes a change that records
all of them and breaks if one of them does (`rollup_eq_some`).  From this follows, for endpoints
(`endpointChange?_eq_some`), for endpoints that are gone (`removal?_eq_some`) and for schemas
(`schemaChange?_eq_some`), what a change is about and how it came about: `Change.Tells` says it for
all three alike.
-/

namespace ApiCanon

/-- The key of the endpoint that a change is about; none for a schema. -/
def Change.key? (c : Change) : Option EndpointKey := c.method.map fun m => ⟨m, c.path⟩

namespace Diff

/-- A change records differences, and breaks if one of them does. -/
structure RolledUp (ds : List Difference) (c : Change) : Prop where
  record : c.differences = some ds
  kind : c.kind = .breaking ∧ HasBreaking ds ∨ c.kind = .modified ∧ ¬HasBreaking ds

/-- A change tells what has become of a thing, which the old and the new description may have. -/
inductive Tells (inOld inNew : Prop) (c : Change) : Prop
  | added (fresh : ¬inOld) (there : inNew) (kind : c.kind = .added)
      (record : c.differences = none)
  | removed (there : inOld) (gone : ¬inNew) (kind : c.kind = .removed)
      (record : c.differences = none)
  | differs (was : inOld) (still : inNew) (ds : List Difference) (rolled : RolledUp ds c)

lemma RolledUp.kind_eq_breaking_iff {ds : List Difference} {c : Change} (h : RolledUp ds c) :
    c.kind = .breaking ↔ HasBreaking ds := by
  rcases h.kind with ⟨kind, breaks⟩ | ⟨kind, harmless⟩
  · exact iff_of_true kind breaks
  · exact iff_of_false (by simp [kind]) harmless

/-- A change breaks exactly if it records something that does. -/
lemma Tells.kind_eq_breaking_iff {inOld inNew : Prop} {c : Change} (h : Tells inOld inNew c) :
    c.kind = .breaking ↔ ∃ ds, c.differences = some ds ∧ HasBreaking ds := by
  cases h with
  | added _ _ kind record => exact iff_of_false (by simp [kind]) (by simp [record])
  | removed _ _ kind record => exact iff_of_false (by simp [kind]) (by simp [record])
  | differs _ _ ds rolled => simp [rolled.kind_eq_breaking_iff, rolled.record]

/-! ## Differences rolled up -/

/-- The only changes that differences make. -/
lemma rollup_eq_some {make : ChangeKind → String → List Difference → Change}
    {ds : List Difference} {c : Change} (h : rollup make ds = some c) :
    ∃ kind text, c = make kind text ds ∧
      (kind = .breaking ∧ HasBreaking ds ∨ kind = .modified ∧ ¬HasBreaking ds) := by
  have none_iff : (ds.filter (·.breaking)).isEmpty = true ↔ ¬HasBreaking ds := by
    simp [HasBreaking, List.filter_eq_nil_iff]
  unfold rollup at h
  split at h
  · cases h
  · dsimp only at h
    split at h
    · next harmless =>
      exact ⟨.modified, _, (Option.some.inj h).symm, Or.inr ⟨rfl, none_iff.1 harmless⟩⟩
    · next breaks =>
      exact ⟨.breaking, _, (Option.some.inj h).symm,
        Or.inl ⟨rfl, not_not.1 (mt none_iff.2 breaks)⟩⟩

/-- Where there are differences there is a change. -/
lemma exists_rollup (make : ChangeKind → String → List Difference → Change)
    {ds : List Difference} (h : ds ≠ []) : ∃ c, rollup make ds = some c :=
  Option.ne_none_iff_exists'.1 (mt (rollup_eq_none_iff make ds).1 h)

/-! ## Endpoints -/

/-- The change of an endpoint, for its differences. -/
def endpointRollup (f : Endpoint) : List Difference → Option Change :=
  rollup fun kind text ds => ⟨kind, f.path, some f.method, text, some ds⟩

lemma endpointRollup_eq_some {f : Endpoint} {ds : List Difference} {c : Change}
    (h : endpointRollup f ds = some c) : c.key? = some f.key ∧ RolledUp ds c := by
  obtain ⟨kind, text, rfl, verdict⟩ := rollup_eq_some h
  exact ⟨rfl, rfl, verdict⟩

/-- An endpoint that is in both descriptions is compared with its old form. -/
lemma endpointChange?_of_shared (o : DiffOptions) {old : Ast} (valid : old.Valid)
    (narrowed : List String) {e f : Endpoint} (he : e ∈ old.endpoints) (key : e.key = f.key) :
    endpointChange? o old narrowed f =
      endpointRollup f (endpointDifferences o old.schemas narrowed e f) := by
  have found : old.endpoints.find? (fun p => p.key == f.key) = some e :=
    key ▸ find?_key_eq_some valid.keys he
  simp only [endpointChange?, found, endpointRollup]

lemma endpointChange?_of_fresh (o : DiffOptions) {old : Ast} (narrowed : List String)
    {f : Endpoint} (fresh : f.key ∉ old.endpoints.map Endpoint.key) :
    endpointChange? o old narrowed f =
      some ⟨.added, f.path, some f.method, s!"endpoint {f.locator} added", none⟩ := by
  have missing : old.endpoints.find? (fun p => p.key == f.key) = none := by
    refine List.find?_eq_none.2 fun p hp same => fresh ?_
    exact List.mem_map.2 ⟨p, hp, by simpa using same⟩
  simp only [endpointChange?, missing]

theorem endpointChange?_eq_some {o : DiffOptions} {old : Ast} (valid : old.Valid)
    {narrowed : List String} {f : Endpoint} {c : Change}
    (h : endpointChange? o old narrowed f = some c) :
    c.key? = some f.key ∧ Tells (f.key ∈ old.endpoints.map Endpoint.key) True c := by
  by_cases known : f.key ∈ old.endpoints.map Endpoint.key
  · obtain ⟨e, he, key⟩ := List.mem_map.1 known
    rw [endpointChange?_of_shared o valid narrowed he key] at h
    obtain ⟨about, rolled⟩ := endpointRollup_eq_some h
    exact ⟨about, .differs known trivial _ rolled⟩
  · rw [endpointChange?_of_fresh o narrowed known] at h
    obtain rfl := Option.some.inj h
    exact ⟨rfl, .added known trivial rfl rfl⟩

theorem removal?_eq_some {new : Ast} {e : Endpoint} {c : Change} (h : removal? new e = some c) :
    c.key? = some e.key ∧ Tells True (e.key ∈ new.endpoints.map Endpoint.key) c := by
  have gone : e.key ∉ new.endpoints.map Endpoint.key :=
    mt (removal?_eq_none_iff new e).2 (by simp [h])
  unfold removal? at h
  split at h
  · cases h
  · obtain rfl := Option.some.inj h
    exact ⟨rfl, .removed trivial gone rfl rfl⟩

/-! ## Schemas -/

theorem schemaChange?_eq_some {o : DiffOptions} {old new : SortedMap Schema} {name : String}
    {c : Change} (h : schemaChange? o old new name = some c) :
    c.method = none ∧ c.path = schemaLocator name ∧
      Tells (name ∈ old.keys) (name ∈ new.keys) c := by
  have known : ∀ (m : SortedMap Schema) (v : Option Schema), m.get? name = v →
      (name ∈ m.keys ↔ v.isSome = true) := by
    intro m v hv
    simp [SortedMap.mem_keys_iff, hv, Option.isSome_iff_exists]
  unfold schemaChange? at h
  split at h
  · next hs ht =>
    obtain rfl := Option.some.inj h
    exact ⟨rfl, rfl, .added (by simp [known _ _ hs]) (by simp [known _ _ ht]) rfl rfl⟩
  · next hs ht =>
    obtain rfl := Option.some.inj h
    exact ⟨rfl, rfl, .removed (by simp [known _ _ hs]) (by simp [known _ _ ht]) rfl rfl⟩
  · next s t hs ht =>
    obtain ⟨kind, text, rfl, verdict⟩ := rollup_eq_some h
    exact ⟨rfl, rfl, .differs (by simp [known _ _ hs]) (by simp [known _ _ ht]) _ ⟨rfl, verdict⟩⟩
  · cases h

end Diff

end ApiCanon
