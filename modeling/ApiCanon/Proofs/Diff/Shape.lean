import ApiCanon.Proofs.Diff.Changes

/-!
# The shape of a comparison

Which changes a comparison has and in which order, whatever the two descriptions have in common.
Three lists follow each other: the endpoints of the new description, the endpoints that are gone,
and the schemas.  Each of them goes through its things in order (`Reports`), tells of every thing
that only one description has, and of no thing twice.

Together (`diff_shape`): nothing is lost, doubled or out of order, no two changes have one locator,
a change breaks exactly if it records something that does, and the counts add up.  What is added on
the way from one description to the other is removed on the way back.

## Locators

The locator of an endpoint starts with a verb, which has no blank, and that of a schema with a
mark that no verb has.  So a locator tells what it stands for.
-/

namespace ApiCanon

/-! ## Locators -/

/-- The verb of a locator ends at its first blank. -/
lemma Method.takeWhile_text_append (m : Method) (rest : List Char) :
    (m.text.toList ++ ' ' :: rest).takeWhile (· != ' ') = m.text.toList := by
  cases m <;> rfl

/-- No verb starts like the locator of a schema. -/
lemma Method.head?_text_append_ne (m : Method) (rest : List Char) :
    (m.text.toList ++ rest).head? ≠ some '#' := by
  cases m <;> simp [Method.text]

lemma EndpointKey.toList_text (k : EndpointKey) :
    k.text.toList = k.method.text.toList ++ ' ' :: k.path.toList := by
  have blank : " ".toList = [' '] := rfl
  simp [EndpointKey.text, String.toList_append, blank]

/-- The text of a key tells the key. -/
theorem EndpointKey.text_injective {k l : EndpointKey} (h : k.text = l.text) : k = l := by
  have chars := congrArg String.toList h
  rw [toList_text, toList_text] at chars
  have verbs := congrArg (List.takeWhile (· != ' ')) chars
  rw [Method.takeWhile_text_append, Method.takeWhile_text_append] at verbs
  obtain ⟨m, path⟩ := k
  obtain ⟨m', path'⟩ := l
  obtain rfl : m = m' := Method.text_injective (String.toList_injective verbs)
  have paths := List.tail_eq_of_cons_eq (List.append_cancel_left chars)
  obtain rfl : path = path' := String.toList_injective paths
  rfl

namespace Diff

lemma schemaLocator_injective {n m : String} (h : schemaLocator n = schemaLocator m) : n = m := by
  have chars := congrArg String.toList h
  simp only [schemaLocator, String.toList_append] at chars
  exact String.toList_injective (List.append_cancel_left chars)

lemma text_ne_schemaLocator (k : EndpointKey) (n : String) : k.text ≠ schemaLocator n := by
  intro h
  have heads := congrArg (fun s : String => s.toList.head?) h
  have mark : (schemaLocator n).toList.head? = some '#' := by
    simp [schemaLocator, String.toList_append]
  simp only [EndpointKey.toList_text, mark] at heads
  exact k.method.head?_text_append_ne _ heads

lemma locator_of_key? {c : Change} {k : EndpointKey} (h : c.key? = some k) :
    c.locator = k.text := by
  obtain ⟨kind, path, method, text, ds⟩ := c
  cases method with
  | none => cases h
  | some m =>
    obtain rfl := Option.some.inj h
    rfl

lemma isSchemaChange_of_key? {c : Change} {k : EndpointKey} (h : c.key? = some k) :
    c.isSchemaChange = false := by
  obtain ⟨m, method, -⟩ := Option.map_eq_some_iff.1 h
  simp [Change.isSchemaChange, method]

lemma locator_of_method {c : Change} (h : c.method = none) : c.locator = c.path := by
  simp [Change.locator, h]

/-! ## Lists of changes -/

/-- The kind of a change suits a thing that the old and the new description may have. -/
structure Fits (inOld inNew : Prop) (k : ChangeKind) : Prop where
  added : k = .added ↔ ¬inOld ∧ inNew
  removed : k = .removed ↔ inOld ∧ ¬inNew
  shared : k = .modified ∨ k = .breaking ↔ inOld ∧ inNew

lemma Tells.fits {inOld inNew : Prop} {c : Change} (h : Tells inOld inNew c) :
    Fits inOld inNew c.kind := by
  cases h with
  | added fresh there kind _ => constructor <;> simp [kind, fresh, there]
  | removed there gone kind _ => constructor <;> simp [kind, gone, there]
  | differs was still ds rolled =>
    rcases rolled.kind with ⟨kind, -⟩ | ⟨kind, -⟩ <;> constructor <;> simp [kind, was, still]

section Reports

variable {α : Type} {name : α → String} {inOld inNew : α → Prop} {things : List α}

/-- A list of changes goes through things in order.  It tells of all that only one description has,
and of no thing twice. -/
def Reports (name : α → String) (inOld inNew : α → Prop) (things : List α) (cs : List Change) :
    Prop :=
  ∃ told : List α, told.Sublist things ∧ (∀ a ∈ things, ¬(inOld a ↔ inNew a) → a ∈ told) ∧
    List.Forall₂ (fun a c => c.locator = name a ∧ Fits (inOld a) (inNew a) c.kind) told cs

/-- What makes the changes of a list, thing by thing. -/
structure Reporter (name : α → String) (inOld inNew : α → Prop) (things : List α)
    (make : α → Option Change) : Prop where
  tells : ∀ a ∈ things, ∀ c, make a = some c →
    c.locator = name a ∧ Tells (inOld a) (inNew a) c
  complete : ∀ a ∈ things, ¬(inOld a ↔ inNew a) → make a ≠ none

lemma forall₂_filterMap {R : α → Change → Prop} {make : α → Option Change}
    (h : ∀ a ∈ things, ∀ c, make a = some c → R a c) :
    List.Forall₂ R (things.filter fun a => (make a).isSome) (things.filterMap make) := by
  induction things with
  | nil => exact .nil
  | cons a r ih =>
    have rest := ih fun b hb => h b (List.mem_cons_of_mem a hb)
    cases ha : make a with
    | none => simpa [List.filter_cons, List.filterMap_cons, ha] using rest
    | some c =>
      simpa [List.filter_cons, List.filterMap_cons, ha] using
        ⟨h a List.mem_cons_self c ha, rest⟩

lemma Reporter.reports {make : α → Option Change}
    (h : Reporter name inOld inNew things make) :
    Reports name inOld inNew things (things.filterMap make) := by
  refine ⟨_, List.filter_sublist, fun a ha onesided => ?_,
    forall₂_filterMap fun a ha c made => (h.tells a ha c made).imp_right Tells.fits⟩
  exact List.mem_filter.2 ⟨ha, Option.isSome_iff_ne_none.2 (h.complete a ha onesided)⟩

lemma map_locator_eq {R : α → Change → Prop} {told : List α} {cs : List Change}
    (agree : List.Forall₂ (fun a c => c.locator = name a ∧ R a c) told cs) :
    cs.map Change.locator = told.map name := by
  induction agree with
  | nil => rfl
  | cons head _ ih => rw [List.map_cons, List.map_cons, head.1, ih]

/-- The locators of a list are names of its things, each at most once. -/
lemma Reports.locators_sublist {cs : List Change} (h : Reports name inOld inNew things cs) :
    (cs.map Change.locator).Sublist (things.map name) := by
  obtain ⟨told, sub, -, agree⟩ := h
  rw [map_locator_eq agree]
  exact sub.map name

/-- A kind of change marks the things that one description has and the other has not. -/
structure Marks (k : ChangeKind) (q : Bool → Bool → Bool) : Prop where
  onesided : ∀ b, q b b = false
  suits : ∀ (inOld inNew : Prop) [Decidable inOld] [Decidable inNew] (kind : ChangeKind),
    Fits inOld inNew kind → (kind = k ↔ q (decide inOld) (decide inNew) = true)

lemma marks_added : Marks .added fun inOld inNew => !inOld && inNew where
  onesided := by decide
  suits := fun _ _ _ _ _ fits => by simp [fits.added]

lemma marks_removed : Marks .removed fun inOld inNew => inOld && !inNew where
  onesided := by decide
  suits := fun _ _ _ _ _ fits => by simp [fits.removed]

/-- The changes of such a kind name the things that it marks, all of them and in order. -/
lemma Reporter.locators_filter {make : α → Option Change} [DecidablePred inOld]
    [DecidablePred inNew] (h : Reporter name inOld inNew things make) {k : ChangeKind}
    {q : Bool → Bool → Bool} (marks : Marks k q) :
    ((things.filterMap make).filter (·.kind == k)).map Change.locator =
      (things.filter fun a => q (inOld a) (inNew a)).map name := by
  induction things with
  | nil => rfl
  | cons a r ih =>
    have rest := ih ⟨fun b hb => h.tells b (List.mem_cons_of_mem a hb),
      fun b hb => h.complete b (List.mem_cons_of_mem a hb)⟩
    cases ha : make a with
    | none =>
      have both : inOld a ↔ inNew a := by
        by_contra apart
        exact h.complete a List.mem_cons_self apart ha
      have unmarked : q (inOld a) (inNew a) = false := by
        rw [decide_eq_decide.2 both, marks.onesided]
      simpa [List.filterMap_cons, List.filter_cons, ha, unmarked] using rest
    | some c =>
      obtain ⟨about, tells⟩ := h.tells a List.mem_cons_self c ha
      have suits := marks.suits _ _ c.kind tells.fits
      cases marked : q (inOld a) (inNew a) with
      | true =>
        have kind : c.kind = k := suits.2 marked
        simpa [List.filterMap_cons, List.filter_cons, ha, marked, kind, about] using rest
      | false =>
        have kind : c.kind ≠ k := fun hk => Bool.false_ne_true (marked ▸ suits.1 hk)
        simpa [List.filterMap_cons, List.filter_cons, ha, marked, kind] using rest

end Reports

/-! ## The three lists -/

variable (o : DiffOptions) {old new : Ast}

lemma endpointChange?_reporter (valid : old.Valid) (narrowed : List String)
    (fs : List Endpoint) :
    Reporter Endpoint.locator (fun f => f.key ∈ old.endpoints.map Endpoint.key) (fun _ => True) fs
      (endpointChange? o old narrowed) where
  tells := fun f _ c made => by
    obtain ⟨about, tells⟩ := endpointChange?_eq_some valid made
    exact ⟨locator_of_key? about, tells⟩
  complete := fun f _ onesided => by
    have fresh : f.key ∉ old.endpoints.map Endpoint.key := fun known =>
      onesided (iff_of_true known trivial)
    simp [endpointChange?_of_fresh o narrowed fresh]

lemma removal?_reporter (new : Ast) (es : List Endpoint) :
    Reporter Endpoint.locator (fun _ => True) (fun e => e.key ∈ new.endpoints.map Endpoint.key) es
      (removal? new) where
  tells := fun e _ c made => by
    obtain ⟨about, tells⟩ := removal?_eq_some made
    exact ⟨locator_of_key? about, tells⟩
  complete := fun e _ onesided =>
    mt (removal?_eq_none_iff new e).1 fun known => onesided (iff_of_true trivial known)

lemma schemaChange?_reporter (old new : SortedMap Schema) (names : List String) :
    Reporter schemaLocator (· ∈ old.keys) (· ∈ new.keys) names (schemaChange? o old new) where
  tells := fun n _ c made => by
    obtain ⟨method, path, tells⟩ := schemaChange?_eq_some made
    exact ⟨(locator_of_method method).trans path, tells⟩
  complete := fun n _ onesided silent =>
    onesided ((schemaChange?_eq_none_iff o old new n).1 silent).1

/-- The endpoints that are gone, each once and in the old order. -/
def ReportsRemovals (old new : Ast) (cs : List Change) : Prop :=
  List.Forall₂ (fun e c => c.locator = e.locator ∧ c.kind = .removed)
    (old.endpoints.filter fun e => e.key ∉ new.endpoints.map Endpoint.key) cs

lemma removals_reported (old new : Ast) :
    ReportsRemovals old new (old.endpoints.filterMap (removal? new)) := by
  have gone : (old.endpoints.filter fun e => e.key ∉ new.endpoints.map Endpoint.key) =
      old.endpoints.filter fun e => (removal? new e).isSome := by
    refine List.filter_congr fun e _ => ?_
    rw [Bool.eq_iff_iff, decide_eq_true_iff, Option.isSome_iff_ne_none]
    exact (not_congr (removal?_eq_none_iff new e)).symm
  rw [ReportsRemovals, gone]
  refine forall₂_filterMap fun e he c made => ?_
  obtain ⟨about, tells⟩ := (removal?_reporter new old.endpoints).tells e he c made
  refine ⟨about, tells.fits.removed.2 ⟨trivial, ?_⟩⟩
  exact mt (removal?_eq_none_iff new e).2 (by simp [made])

/-- The schemas of both descriptions, by name. -/
def ReportsSchemas (old new : SortedMap Schema) (cs : List Change) : Prop :=
  ∃ names : List String, names.Pairwise (· < ·) ∧ (∀ n, n ∈ names ↔ n ∈ old.keys ∨ n ∈ new.keys) ∧
    Reports schemaLocator (· ∈ old.keys) (· ∈ new.keys) names cs

lemma schemas_reported (old new : SortedMap Schema) :
    ReportsSchemas old new (schemaChanges o old new) :=
  ⟨_, pairwise_sortedNames _, fun n => by rw [mem_sortedNames, List.mem_append],
    (schemaChange?_reporter o old new _).reports⟩

/-- Every change tells of something. -/
lemma exists_tells_of_mem_changes (valid : old.Valid) (new : Ast) {c : Change}
    (hc : c ∈ changes o old new) : ∃ inOld inNew, Tells inOld inNew c := by
  rcases List.mem_append.1 hc with hc | hc
  · rcases List.mem_append.1 hc with hc | hc
    · obtain ⟨f, -, made⟩ := List.mem_filterMap.1 hc
      exact ⟨_, _, (endpointChange?_eq_some valid made).2⟩
    · obtain ⟨e, -, made⟩ := List.mem_filterMap.1 hc
      exact ⟨_, _, (removal?_eq_some made).2⟩
  · split at hc
    · obtain ⟨n, -, made⟩ := List.mem_filterMap.1 hc
      exact ⟨_, _, (schemaChange?_eq_some made).2.2⟩
    · cases hc

/-! ## Distinct locators -/

lemma nodup_locators {es : List Endpoint} (distinct : (es.map Endpoint.key).Nodup) :
    (es.map Endpoint.locator).Nodup := by
  have texts := List.Nodup.map_on (fun _ _ _ _ h => EndpointKey.text_injective h) distinct
  rwa [List.map_map] at texts

/-- A removal has another locator than all endpoints of the new description. -/
lemma locator_ne_of_removed {e f : Endpoint} (hf : f ∈ new.endpoints)
    (gone : e.key ∉ new.endpoints.map Endpoint.key) : f.locator ≠ e.locator := by
  intro same
  have key : f.key = e.key := EndpointKey.text_injective same
  exact gone (key ▸ List.mem_map_of_mem hf)

/-- Three lists as a comparison has them share no locator. -/
lemma nodup_locators_append (validOld : old.Valid) (validNew : new.Valid)
    {endpoints removals schemas : List Change} {names : List String}
    (reported : (endpoints.map Change.locator).Sublist (new.endpoints.map Endpoint.locator))
    (gone : ReportsRemovals old new removals) (distinct : names.Nodup)
    (named : (schemas.map Change.locator).Sublist (names.map schemaLocator)) :
    ((endpoints ++ removals ++ schemas).map Change.locator).Nodup := by
  have removed := map_locator_eq gone
  have apart : ∀ l ∈ endpoints.map Change.locator ++ removals.map Change.locator,
      ∃ e : Endpoint, l = e.locator := by
    intro l hl
    rcases List.mem_append.1 hl with hl | hl
    · obtain ⟨f, -, rfl⟩ := List.mem_map.1 (reported.subset hl)
      exact ⟨f, rfl⟩
    · obtain ⟨e, -, rfl⟩ := List.mem_map.1 (removed ▸ hl)
      exact ⟨e, rfl⟩
  rw [List.map_append, List.map_append]
  refine List.nodup_append.2 ⟨List.nodup_append.2 ⟨?_, ?_, ?_⟩, ?_, ?_⟩
  · exact (nodup_locators validNew.keys).sublist reported
  · rw [removed]
    exact (nodup_locators validOld.keys).sublist (List.filter_sublist.map _)
  · intro l hl m hm
    obtain ⟨f, hf, rfl⟩ := List.mem_map.1 (reported.subset hl)
    obtain ⟨e, he, rfl⟩ := List.mem_map.1 (removed ▸ hm)
    exact locator_ne_of_removed hf (by simpa using (List.mem_filter.1 he).2)
  · exact (distinct.map_on fun _ _ _ _ h => schemaLocator_injective h).sublist named
  · intro l hl m hm
    obtain ⟨e, rfl⟩ := apart l hl
    obtain ⟨n, -, rfl⟩ := List.mem_map.1 (named.subset hm)
    exact text_ne_schemaLocator e.key n

/-! ## There and back -/

/-- The locators of the changes of one kind, as far as it marks what only one description has. -/
lemma locators_changes {k : ChangeKind} {q : Bool → Bool → Bool} (marks : Marks k q)
    (valid : old.Valid) (new : Ast) :
    ((changes o old new).filter (·.kind == k)).map Change.locator =
      (new.endpoints.filter fun f =>
        q (f.key ∈ old.endpoints.map Endpoint.key) true).map Endpoint.locator ++
      (old.endpoints.filter fun e =>
        q true (e.key ∈ new.endpoints.map Endpoint.key)).map Endpoint.locator ++
      if o.includeSchemas then
        ((sortedNames (old.schemas.keys ++ new.schemas.keys)).filter fun n =>
          q (n ∈ old.schemas.keys) (n ∈ new.schemas.keys)).map schemaLocator
      else [] := by
  have endpoints := (endpointChange?_reporter o valid
    (narrowedSchemas old.schemas new.schemas) new.endpoints).locators_filter marks
  have removals := (removal?_reporter new old.endpoints).locators_filter marks
  have schemas := (schemaChange?_reporter o old.schemas new.schemas
    (sortedNames (old.schemas.keys ++ new.schemas.keys))).locators_filter marks
  simp only [decide_true] at endpoints removals
  rw [changes, List.filter_append, List.filter_append, List.map_append, List.map_append, endpoints,
    removals]
  congr 1
  cases o.includeSchemas with
  | false => rfl
  | true => exact schemas

/-- What is added on the way there is removed on the way back. -/
lemma locators_mirror (validOld : old.Valid) (validNew : new.Valid) :
    ((changes o old new).filter (·.kind == .added)).map Change.locator =
      ((changes o new old).filter (·.kind == .removed)).map Change.locator := by
  have names : sortedNames (old.schemas.keys ++ new.schemas.keys) =
      sortedNames (new.schemas.keys ++ old.schemas.keys) :=
    sortedNames_congr fun n => by simp only [List.mem_append, or_comm]
  rw [locators_changes o marks_added validOld, locators_changes o marks_removed validNew, names]
  simp [Bool.and_comm]

/-! ## The counts -/

lemma length_eq_counts (r : DiffResult) :
    r.changes.length =
      r.count .added + r.count .removed + r.count .modified + r.count .breaking := by
  unfold DiffResult.count DiffResult.changesOf
  induction r.changes with
  | nil => rfl
  | cons c cs ih =>
    cases h : c.kind <;> simp [h] <;> omega

/-! ## The whole comparison -/

/-- The shape of a comparison. -/
structure Shape (o : DiffOptions) (old new : Ast) (r : DiffResult) : Prop where
  /-- The endpoints of the new description, those that are gone, and the schemas, each in order. -/
  parts : ∃ endpoints removals schemas, r.changes = endpoints ++ removals ++ schemas ∧
    Reports Endpoint.locator (fun f => f.key ∈ old.endpoints.map Endpoint.key) (fun _ => True)
      new.endpoints endpoints ∧
    ReportsRemovals old new removals ∧
    (o.includeSchemas = true → ReportsSchemas old.schemas new.schemas schemas) ∧
    (o.includeSchemas = false → schemas = []) ∧
    (∀ c ∈ endpoints ++ removals, c.isSchemaChange = false) ∧
    ∀ c ∈ schemas, c.isSchemaChange = true
  distinct : (r.changes.map Change.locator).Nodup
  breaking : ∀ c ∈ r.changes,
    c.kind = .breaking ↔ ∃ ds, c.differences = some ds ∧ HasBreaking ds
  total : r.changes.length =
    r.count .added + r.count .removed + r.count .modified + r.count .breaking

lemma isSchemaChange_of_mem_endpoints (valid : old.Valid) {new : Ast} {narrowed : List String}
    {c : Change} (hc : c ∈ new.endpoints.filterMap (endpointChange? o old narrowed) ++
      old.endpoints.filterMap (removal? new)) : c.isSchemaChange = false := by
  rcases List.mem_append.1 hc with hc | hc
  · obtain ⟨f, -, made⟩ := List.mem_filterMap.1 hc
    exact isSchemaChange_of_key? (endpointChange?_eq_some valid made).1
  · obtain ⟨e, -, made⟩ := List.mem_filterMap.1 hc
    exact isSchemaChange_of_key? (removal?_eq_some made).1

lemma isSchemaChange_of_mem_schemaChanges {old new : SortedMap Schema} {c : Change}
    (hc : c ∈ schemaChanges o old new) : c.isSchemaChange = true := by
  obtain ⟨n, -, made⟩ := List.mem_filterMap.1 hc
  simp [Change.isSchemaChange, (schemaChange?_eq_some made).1]

lemma changes_shape (validOld : old.Valid) (validNew : new.Valid) :
    Shape o old new ⟨changes o old new⟩ := by
  have reporter := endpointChange?_reporter o validOld
    (narrowedSchemas old.schemas new.schemas) new.endpoints
  have removals := removals_reported old new
  refine ⟨⟨_, _, _, rfl, reporter.reports, removals, fun included => ?_, fun excluded => ?_,
    fun c hc => isSchemaChange_of_mem_endpoints o validOld hc, fun c hc => ?_⟩, ?_,
    fun c hc => ?_, length_eq_counts _⟩
  · rw [if_pos included]
    exact schemas_reported o old.schemas new.schemas
  · rw [if_neg (by simp [excluded])]
  · split at hc
    · exact isSchemaChange_of_mem_schemaChanges o hc
    · cases hc
  · refine nodup_locators_append validOld validNew reporter.reports.locators_sublist removals
      (nodup_sortedNames (old.schemas.keys ++ new.schemas.keys)) ?_
    split
    · exact (schemaChange?_reporter o old.schemas new.schemas _).reports.locators_sublist
    · exact List.nil_sublist _
  · obtain ⟨inOld, inNew, tells⟩ := exists_tells_of_mem_changes o validOld new hc
    exact tells.kind_eq_breaking_iff

/-- **The shape of every comparison.**  First come the endpoints of the new description in its
order, then those that are gone in the old order, then, if they are asked for, the schemas by name.
All locators differ, a change breaks exactly if it records something that does, the counts add up,
and what one direction adds the other one removes. -/
theorem diff_shape {old new : Ast} (validOld : fault? .old old = none)
    (validNew : fault? .new new = none) :
    ∃ r back, diff o old new = .ok r ∧ diff o new old = .ok back ∧ Shape o old new r ∧
      (r.changesOf .added).map Change.locator = (back.changesOf .removed).map Change.locator := by
  have hold := (fault?_eq_none_iff .old old).1 validOld
  have hnew := (fault?_eq_none_iff .new new).1 validNew
  exact ⟨_, _, diff_of_valid o hold hnew, diff_of_valid o hnew hold, changes_shape o hold hnew,
    locators_mirror o hold hnew⟩

/-- A description with some paths to read and some schemas without properties. -/
def directory (paths names : List String) : Ast where
  endpoints := paths.map (Endpoint.plain .get)
  schemas := .ofList (names.map fun n => (n, Schema.named n))
  metadata := (Draft.start "openapi").ast.metadata
  unresolved := false

/-- Two descriptions that share a path and a schema, each with one of its own besides. -/
theorem diff_shape_directory :
    ∃ r back,
      diff .default (directory ["/a", "/b"] ["X", "Y"]) (directory ["/c", "/b"] ["Y", "Z"]) =
        .ok r ∧
      diff .default (directory ["/c", "/b"] ["Y", "Z"]) (directory ["/a", "/b"] ["X", "Y"]) =
        .ok back ∧
      (r.changesOf .added).map Change.locator = (back.changesOf .removed).map Change.locator ∧
      (back.changesOf .removed).map Change.locator = ["GET /c", "#/schemas/Z"] := by
  have passesOld : fault? .old (directory ["/a", "/b"] ["X", "Y"]) = none := by decide
  have passesNew : fault? .new (directory ["/c", "/b"] ["Y", "Z"]) = none := by decide
  obtain ⟨r, back, there, hence, -, mirror⟩ := diff_shape .default passesOld passesNew
  refine ⟨r, back, there, hence, mirror, ?_⟩
  obtain rfl := Except.ok.inj hence
  have valid := (fault?_eq_none_iff .new _).1 passesNew
  exact (locators_changes .default marks_removed valid _).trans (by decide)

end Diff

end ApiCanon
