import ApiCanon.Proofs.Diff.Narrowing

/-!
# Releases one after another

Whether a client of one release can go on with a later one, without the releases between being
compared with each other.  A comparison is *harmless* if it has no change that breaks and none that
removes.  With the schemas included this is a matter of what the descriptions hold
(`harmless_changes_iff_compatible`): every endpoint and every schema is still there, and none of
them breaks.

Every rule of the policy has the form that what breaks from a first release to a last one already
breaks on one of the two ways between (`SchemaBreaks.split`, `EndpointBreaks.split`).  There is one
exception: a body that is gone breaks nothing, and neither does one that comes in as optional, so a
body may be exchanged by way of a release without it.  Where bodies stay, harmless comparisons
compose (`harmless_diff_trans`).
-/

namespace ApiCanon

/-- A change that neither breaks nor removes. -/
def Change.Harmless (c : Change) : Prop := c.kind ≠ .breaking ∧ c.kind ≠ .removed

instance (c : Change) : Decidable c.Harmless :=
  inferInstanceAs (Decidable (c.kind ≠ .breaking ∧ c.kind ≠ .removed))

/-- A comparison without a change that breaks or removes. -/
def DiffResult.Harmless (r : DiffResult) : Prop := ∀ c ∈ r.changes, c.Harmless

instance (r : DiffResult) : Decidable r.Harmless :=
  inferInstanceAs (Decidable (∀ c ∈ r.changes, c.Harmless))

namespace Diff

instance (ds : List Difference) : Decidable (HasBreaking ds) :=
  inferInstanceAs (Decidable (∃ d ∈ ds, d.breaking = true))

/-! ## What breaks on the whole way breaks on a part of it -/

lemma ParametersBreak.split {a c : List Parameter} (h : ParametersBreak a c) (b : List Parameter) :
    ParametersBreak a b ∨ ParametersBreak b c := by
  by_contra neither
  obtain ⟨first, second⟩ := not_or.1 neither
  -- a slot of the first release is there in the release between, no stricter and of the same type
  have between : ∀ p ∈ a, ∃ q ∈ b, q.slot = p.slot ∧
      (p.required = false → q.required = false) ∧ q.schema = p.schema := by
    intro p hp
    by_cases kept : p.slot ∈ b.map Parameter.slot
    · obtain ⟨q, hq, slot⟩ := List.mem_map.1 kept
      refine ⟨q, hq, slot, fun was => ?_, ?_⟩
      · by_contra is
        exact first (.nowRequired p q hp hq slot was (Bool.not_eq_false _ ▸ is))
      · by_contra type
        exact first (.retyped p q hp hq slot (Ne.symm type))
    · exact absurd (.gone p hp kept) first
  rcases h with ⟨p, hp, lost⟩ | ⟨p, r, hp, hr, slot, was, is⟩ | ⟨p, r, hp, hr, slot, type⟩ |
    ⟨r, hr, fresh, required⟩
  · obtain ⟨q, hq, same, -⟩ := between p hp
    exact second (.gone q hq (same ▸ lost))
  · obtain ⟨q, hq, same, optional, -⟩ := between p hp
    exact second (.nowRequired q r hq hr (slot.trans same.symm) (optional was) is)
  · obtain ⟨q, hq, same, -, kept⟩ := between p hp
    exact second (.retyped q r hq hr (slot.trans same.symm) fun h => type (kept ▸ h))
  · by_cases known : r.slot ∈ b.map Parameter.slot
    · obtain ⟨q, hq, slot⟩ := List.mem_map.1 known
      cases demanded : q.required with
      | true => exact first (.demanded q hq (slot ▸ fresh) demanded)
      | false => exact second (.nowRequired q r hq hr slot.symm demanded required)
    · exact second (.demanded r hr known required)

lemma BodyBreaks.split {a c : Option RequestBody} (h : BodyBreaks a c) {b : Option RequestBody}
    (kept : a.isSome = true → b.isSome = true) : BodyBreaks a b ∨ BodyBreaks b c := by
  by_contra neither
  obtain ⟨first, second⟩ := not_or.1 neither
  -- a body of the first release is there in the release between, no stricter and of the same types
  have between : ∀ x, a = some x → ∃ y, b = some y ∧ (x.required = false → y.required = false) ∧
      y.schema = x.schema ∧ y.contentType = x.contentType := by
    rintro x rfl
    obtain ⟨y, rfl⟩ := Option.isSome_iff_exists.1 (kept rfl)
    refine ⟨y, rfl, fun was => ?_, ?_, ?_⟩
    · by_contra is
      exact first (.nowRequired x y was (Bool.not_eq_false _ ▸ is))
    · by_contra type
      exact first (.retyped x y (Ne.symm type))
    · by_contra media
      exact first (.recoded x y (Ne.symm media))
  rcases h with ⟨z, required⟩ | ⟨x, z, was, is⟩ | ⟨x, z, type⟩ | ⟨x, z, media⟩
  · cases b with
    | none => exact second (.demanded z required)
    | some y =>
      cases demanded : y.required with
      | true => exact first (.demanded y demanded)
      | false => exact second (.nowRequired y z demanded required)
  · obtain ⟨y, rfl, optional, -⟩ := between x rfl
    exact second (.nowRequired y z (optional was) is)
  · obtain ⟨y, rfl, -, same, -⟩ := between x rfl
    exact second (.retyped y z fun h => type (same ▸ h))
  · obtain ⟨y, rfl, -, -, same⟩ := between x rfl
    exact second (.recoded y z fun h => media (same ▸ h))

/-- By way of no body, a body may be exchanged for one of another type. -/
example :
    ¬HasBreaking (compareRequestBody .default (some (.json (.named "Order") false)) none) ∧
    ¬HasBreaking (compareRequestBody .default none (some (.json (.named "Cart") false))) ∧
    HasBreaking (compareRequestBody .default (some (.json (.named "Order") false))
      (some (.json (.named "Cart") false))) := by
  decide

lemma ResponsesBreak.split {a c : List Response} (h : ResponsesBreak a c) (b : List Response) :
    ResponsesBreak a b ∨ ResponsesBreak b c := by
  by_contra neither
  obtain ⟨first, second⟩ := not_or.1 neither
  -- a status of the first release is there in the release between, and has its type if it had one
  have between : ∀ r ∈ a, ∃ s ∈ b, s.status = r.status ∧
      ∀ t, r.schema = some t → s.schema = some t := by
    intro r hr
    by_cases kept : r.status ∈ b.map Response.status
    · obtain ⟨s, hs, status⟩ := List.mem_map.1 kept
      refine ⟨s, hs, status, fun t was => ?_⟩
      by_contra is
      exact first (.retyped r s hr hs status t was is)
    · exact absurd (.gone r hr kept) first
  rcases h with ⟨r, hr, lost⟩ | ⟨r, u, hr, hu, status, t, was, is⟩
  · obtain ⟨s, hs, same, -⟩ := between r hr
    exact second (.gone s hs (same ▸ lost))
  · obtain ⟨s, hs, same, kept⟩ := between r hr
    exact second (.retyped s u hs hu (status.trans same.symm) t (kept t was) is)

lemma EndpointBreaks.split {a c : Endpoint} (h : EndpointBreaks a c) {b : Endpoint}
    (kept : a.requestBody.isSome = true → b.requestBody.isSome = true) :
    EndpointBreaks a b ∨ EndpointBreaks b c := by
  cases h with
  | parameters breaks => exact (breaks.split b.parameters).imp .parameters .parameters
  | body breaks => exact (breaks.split kept).imp .body .body
  | responses breaks => exact (breaks.split b.responses).imp .responses .responses

lemma SchemaBreaks.split {a c : Schema} (h : SchemaBreaks a c) (b : Schema) :
    SchemaBreaks a b ∨ SchemaBreaks b c := by
  by_contra neither
  obtain ⟨first, second⟩ := not_or.1 neither
  rcases h with ⟨k, p, was, lost⟩ | ⟨k, p, r, was, is, type⟩ |
    ⟨k, p, r, was, is, optional, required⟩ | ⟨k, r, fresh, is, required⟩ | ⟨v, was, lost⟩
  · obtain ⟨q, between, -⟩ := get?_of_not_breaks first was
    exact second (.gone k q between lost)
  · obtain ⟨q, between, same, -⟩ := get?_of_not_breaks first was
    exact second (.retyped k q r between is fun h => type (same ▸ h))
  · obtain ⟨q, between, demanded⟩ := required_of_not_breaks second is required
    obtain ⟨p', was', demanded'⟩ := required_of_not_breaks first between demanded
    obtain rfl : p = p' := Option.some.inj (was.symm.trans was')
    exact Bool.false_ne_true (optional.symm.trans demanded')
  · obtain ⟨q, between, demanded⟩ := required_of_not_breaks second is required
    obtain ⟨p, was, -⟩ := required_of_not_breaks first between demanded
    rw [fresh] at was
    cases was
  · by_cases between : v ∈ b.enumValues
    · exact second (.textGone v between lost)
    · exact first (.textGone v was between)

/-! ## Harmless changes -/

lemma forall_mem_filterMap_iff {α β : Type} {l : List α} {f : α → Option β} {P : β → Prop} :
    (∀ b ∈ l.filterMap f, P b) ↔ ∀ a ∈ l, ∀ b, f a = some b → P b := by
  simp only [List.mem_filterMap]
  exact ⟨fun h a ha b hb => h b ⟨a, ha, hb⟩, fun h b ⟨a, ha, hb⟩ => h a ha b hb⟩

/-- Differences make a harmless change, or none, exactly if none of them breaks. -/
lemma harmless_rollup_iff {make : ChangeKind → String → List Difference → Change}
    (kinds : ∀ kind text ds, (make kind text ds).kind = kind) (ds : List Difference) :
    (∀ c, rollup make ds = some c → c.Harmless) ↔ ¬HasBreaking ds := by
  constructor
  · intro harmless breaks
    obtain ⟨c, made⟩ := exists_rollup make breaks.ne_nil
    obtain ⟨kind, text, rfl, ⟨rfl, -⟩ | ⟨-, gentle⟩⟩ := rollup_eq_some made
    · exact (harmless _ made).1 (kinds _ _ _)
    · exact gentle breaks
  · intro gentle c made
    obtain ⟨kind, text, rfl, ⟨-, breaks⟩ | ⟨rfl, -⟩⟩ := rollup_eq_some made
    · exact absurd breaks gentle
    · simp [Change.Harmless, kinds]

variable (o : DiffOptions) {old new : Ast}

lemma harmless_endpointChange?_iff (valid : old.Valid) (narrowed : List String) (f : Endpoint) :
    (∀ c, endpointChange? o old narrowed f = some c → c.Harmless) ↔
      ∀ e ∈ old.endpoints, e.key = f.key →
        ¬HasBreaking (endpointDifferences o old.schemas narrowed e f) := by
  have rolled : ∀ e ∈ old.endpoints, e.key = f.key →
      ((∀ c, endpointChange? o old narrowed f = some c → c.Harmless) ↔
        ¬HasBreaking (endpointDifferences o old.schemas narrowed e f)) := by
    intro e he key
    rw [endpointChange?_of_shared o valid narrowed he key]
    exact harmless_rollup_iff (fun _ _ _ => rfl) _
  constructor
  · intro harmless e he key
    exact (rolled e he key).1 harmless
  · intro gentle
    by_cases known : f.key ∈ old.endpoints.map Endpoint.key
    · obtain ⟨e, he, key⟩ := List.mem_map.1 known
      exact (rolled e he key).2 (gentle e he key)
    · rw [endpointChange?_of_fresh o narrowed known]
      rintro c ⟨⟩
      simp [Change.Harmless]

lemma harmless_removal?_iff (new : Ast) (e : Endpoint) :
    (∀ c, removal? new e = some c → c.Harmless) ↔ e.key ∈ new.endpoints.map Endpoint.key := by
  rw [← removal?_eq_none_iff]
  constructor
  · intro harmless
    by_contra gone
    obtain ⟨c, made⟩ := Option.ne_none_iff_exists'.1 gone
    cases (removal?_eq_some made).2 with
    | added fresh => exact fresh trivial
    | removed _ _ kind => exact (harmless c made).2 kind
    | differs _ still => exact gone ((removal?_eq_none_iff new e).2 still)
  · intro silent c made
    rw [silent] at made
    cases made

lemma harmless_schemaChange?_iff (old new : SortedMap Schema) (n : String) :
    (∀ c, schemaChange? o old new n = some c → c.Harmless) ↔
      ∀ s, old.get? n = some s → ∃ t, new.get? n = some t ∧ ¬SchemaBreaks s t := by
  simp only [schemaChange?]
  cases old.get? n with
  | none => cases new.get? n <;> simp [Change.Harmless]
  | some s =>
    cases new.get? n with
    | none => simp [Change.Harmless]
    | some t =>
      simp only [Option.some.injEq, forall_eq', exists_eq_left',
        ← hasBreaking_compareSchemas_iff o]
      exact harmless_rollup_iff (fun _ _ _ => rfl) _

lemma harmless_schemaChanges_iff (old new : SortedMap Schema) :
    (∀ c ∈ schemaChanges o old new, c.Harmless) ↔
      ∀ n s, old.get? n = some s → ∃ t, new.get? n = some t ∧ ¬SchemaBreaks s t := by
  simp only [schemaChanges, forall_mem_filterMap_iff, harmless_schemaChange?_iff, mem_sortedNames,
    List.mem_append]
  constructor
  · intro h n s was
    exact h n (Or.inl ((SortedMap.mem_keys_iff old n).2 ⟨s, was⟩)) s was
  · intro h n _
    exact h n

/-! ## Compatible descriptions -/

/-- A client of the old description can go on with the new one: every endpoint and every schema is
still there, and none of them breaks. -/
structure Compatible (old new : Ast) : Prop where
  endpoints : ∀ e ∈ old.endpoints, ∃ f ∈ new.endpoints, f.key = e.key ∧ ¬EndpointBreaks e f
  schemas : ∀ n s, old.schemas.get? n = some s →
    ∃ t, new.schemas.get? n = some t ∧ ¬SchemaBreaks s t

/-- Where no schema breaks none is narrowed, so that an endpoint breaks by itself only. -/
lemma hasBreaking_endpointDifferences_iff_of_schemas
    (schemas : ∀ n s, old.schemas.get? n = some s →
      ∃ t, new.schemas.get? n = some t ∧ ¬SchemaBreaks s t) (e : Endpoint) {f : Endpoint}
    (keyed : f.Keyed) :
    HasBreaking (endpointDifferences o old.schemas (narrowedSchemas old.schemas new.schemas) e f) ↔
      EndpointBreaks e f := by
  rw [hasBreaking_endpointDifferences_iff, hasBreaking_compareEndpoints_iff o e keyed]
  refine or_iff_left ?_
  rintro ⟨n, -, s, t, was, is, breaking⟩
  obtain ⟨t', is', gentle⟩ := schemas n s was
  obtain rfl : t = t' := Option.some.inj (is.symm.trans is')
  exact gentle ((hasBreaking_compareSchemas_iff o s t).1 breaking)

/-- With the schemas included, a comparison is harmless exactly on compatible descriptions. -/
theorem harmless_changes_iff_compatible (included : o.includeSchemas = true) (validOld : old.Valid)
    (validNew : new.Valid) (keyed : new.Keyed) :
    (∀ c ∈ changes o old new, c.Harmless) ↔ Compatible old new := by
  simp only [changes, included, if_true, List.forall_mem_append, forall_mem_filterMap_iff,
    harmless_endpointChange?_iff o validOld, harmless_removal?_iff, harmless_schemaChanges_iff]
  constructor
  · rintro ⟨⟨gentle, kept⟩, schemas⟩
    refine ⟨fun e he => ?_, schemas⟩
    obtain ⟨f, hf, key⟩ := List.mem_map.1 (kept e he)
    refine ⟨f, hf, key, fun breaks => gentle f hf e he key.symm ?_⟩
    exact (hasBreaking_endpointDifferences_iff_of_schemas o schemas e (keyed f hf)).2 breaks
  · rintro ⟨endpoints, schemas⟩
    refine ⟨⟨fun f hf e he key breaking => ?_, fun e he => ?_⟩, schemas⟩
    · obtain ⟨f', hf', key', gentle⟩ := endpoints e he
      obtain rfl : f' = f := List.inj_on_of_nodup_map validNew.keys hf' hf (key'.trans key)
      exact gentle ((hasBreaking_endpointDifferences_iff_of_schemas o schemas e
        (keyed f' hf')).1 breaking)
    · obtain ⟨f, hf, key, -⟩ := endpoints e he
      exact List.mem_map.2 ⟨f, hf, key⟩

/-- Compatibility can be read off the comparisons of what the descriptions share. -/
lemma compatible_iff_comparisons (keyed : new.Keyed) : Compatible old new ↔
    (∀ e ∈ old.endpoints, ∃ f ∈ new.endpoints,
      f.key = e.key ∧ ¬HasBreaking (compareEndpoints o e f)) ∧
    ∀ p ∈ old.schemas.entries, ∃ t ∈ new.schemas.get? p.1,
      ¬HasBreaking (compareSchemas o p.2 t) := by
  have endpoint : ∀ e, ∀ f ∈ new.endpoints,
      (HasBreaking (compareEndpoints o e f) ↔ EndpointBreaks e f) := fun e f hf =>
    hasBreaking_compareEndpoints_iff o e (keyed f hf)
  simp only [hasBreaking_compareSchemas_iff, Prod.forall, SortedMap.get?_eq_some_iff,
    Option.mem_def]
  constructor
  · rintro ⟨endpoints, schemas⟩
    refine ⟨fun e he => ?_, ?_⟩
    · obtain ⟨f, hf, key, gentle⟩ := endpoints e he
      exact ⟨f, hf, key, mt (endpoint e f hf).1 gentle⟩
    · simpa only [SortedMap.get?_eq_some_iff] using schemas
  · rintro ⟨endpoints, schemas⟩
    refine ⟨fun e he => ?_, ?_⟩
    · obtain ⟨f, hf, key, gentle⟩ := endpoints e he
      exact ⟨f, hf, key, mt (endpoint e f hf).2 gentle⟩
    · simpa only [SortedMap.get?_eq_some_iff] using schemas

/-- No endpoint of a description is without its body in the next one. -/
def BodiesStay (old new : Ast) : Prop :=
  ∀ e ∈ old.endpoints, ∀ f ∈ new.endpoints, f.key = e.key →
    e.requestBody.isSome = true → f.requestBody.isSome = true

/-- Compatibility goes from release to release as long as bodies stay on the first way. -/
theorem Compatible.trans {a b c : Ast} (first : Compatible a b) (second : Compatible b c)
    (bodies : BodiesStay a b) : Compatible a c where
  endpoints := fun e he => by
    obtain ⟨f, hf, key, gentle⟩ := first.endpoints e he
    obtain ⟨g, hg, key', gentle'⟩ := second.endpoints f hf
    refine ⟨g, hg, key'.trans key, fun breaks => ?_⟩
    exact (breaks.split (bodies e he f hf key)).elim gentle gentle'
  schemas := fun n s was => by
    obtain ⟨t, between, gentle⟩ := first.schemas n s was
    obtain ⟨u, is, gentle'⟩ := second.schemas n t between
    exact ⟨u, is, fun breaks => (breaks.split t).elim gentle gentle'⟩

lemma valid_of_diff_eq_ok {r : DiffResult} (h : diff o old new = .ok r) :
    old.Valid ∧ new.Valid ∧ r.changes = changes o old new := by
  unfold diff at h
  split at h
  · cases h
  · next passes =>
    obtain ⟨passesOld, passesNew⟩ : fault? .old old = none ∧ fault? .new new = none := by
      simpa using passes
    obtain rfl := Except.ok.inj h
    exact ⟨(fault?_eq_none_iff .old old).1 passesOld,
      (fault?_eq_none_iff .new new).1 passesNew, rfl⟩

/-- **Harmless comparisons compose.**  If nothing breaks and nothing is removed from a first release
to a second one and from there to a third one, and no endpoint loses its body on the first way, then
nothing breaks and nothing is removed from the first release to the third one. -/
theorem harmless_diff_trans {a b c : Ast} {ab bc : DiffResult} (first : diff .default a b = .ok ab)
    (second : diff .default b c = .ok bc) (keyedB : b.Keyed) (keyedC : c.Keyed)
    (harmlessFirst : ab.Harmless) (harmlessSecond : bc.Harmless) (bodies : BodiesStay a b) :
    ∃ ac, diff .default a c = .ok ac ∧ ac.Harmless := by
  obtain ⟨validA, validB, changesFirst⟩ := valid_of_diff_eq_ok .default first
  obtain ⟨-, validC, changesSecond⟩ := valid_of_diff_eq_ok .default second
  have compatibleFirst := (harmless_changes_iff_compatible .default rfl validA validB keyedB).1
    (changesFirst ▸ harmlessFirst)
  have compatibleSecond := (harmless_changes_iff_compatible .default rfl validB validC keyedC).1
    (changesSecond ▸ harmlessSecond)
  refine ⟨_, diff_of_valid .default validA validC, ?_⟩
  exact (harmless_changes_iff_compatible .default rfl validA validC keyedC).2
    (compatibleFirst.trans compatibleSecond bodies)

/-- A release of a shop, which takes orders with a body or without one and answers with some
statuses, each time with the state of the order. -/
def shop (body : Option RequestBody) (statuses states : List String) : Ast where
  endpoints := [{ Endpoint.plain .post "/orders" with
    requestBody := body
    responses := statuses.map fun s => { Response.plain s with schema := some (.named "State") } }]
  schemas := .ofList [("State", { Schema.named "State" with enumValues := states })]
  metadata := (Draft.start "openapi").ast.metadata
  unresolved := false

lemma keyed_shop (body : Option RequestBody) (statuses states : List String)
    (distinct : statuses.Nodup) : (shop body statuses states).Keyed := by
  intro e he
  obtain rfl := List.mem_singleton.1 he
  exact ⟨List.nodup_nil, by simpa [shop, Function.comp_def, Response.plain] using distinct⟩

/-- Three releases of a shop: the body becomes optional, then a status and a state are added. -/
theorem harmless_diff_trans_shop :
    ∃ r, diff .default (shop (some (.json (.named "Order") true)) ["201"] ["open"])
        (shop (some (.json (.named "Order") false)) ["201", "202"] ["open", "paid"]) = .ok r ∧
      r.Harmless := by
  have validA : (shop (some (.json (.named "Order") true)) ["201"] ["open"]).Valid :=
    (fault?_eq_none_iff .old _).1 (by decide)
  have validB : (shop (some (.json (.named "Order") false)) ["201"] ["open"]).Valid :=
    (fault?_eq_none_iff .old _).1 (by decide)
  have validC :
      (shop (some (.json (.named "Order") false)) ["201", "202"] ["open", "paid"]).Valid :=
    (fault?_eq_none_iff .old _).1 (by decide)
  have keyedB := keyed_shop (some (.json (.named "Order") false)) ["201"] ["open"] (by decide)
  have keyedC := keyed_shop (some (.json (.named "Order") false)) ["201", "202"] ["open", "paid"]
    (by decide)
  refine harmless_diff_trans (diff_of_valid .default validA validB)
    (diff_of_valid .default validB validC) keyedB keyedC
    ((harmless_changes_iff_compatible .default rfl validA validB keyedB).2 ?_)
    ((harmless_changes_iff_compatible .default rfl validB validC keyedC).2 ?_)
    fun e he f hf _ _ => ?_
  · exact (compatible_iff_comparisons .default keyedB).2 (by decide)
  · exact (compatible_iff_comparisons .default keyedC).2 (by decide)
  · obtain rfl := List.mem_singleton.1 hf
    rfl

end Diff

end ApiCanon
