import ApiCanon.Proofs.Diff.Narrowing
import ApiCanon.Proofs.Diff.Shape
import Mathlib.Data.List.Forall2
import Mathlib.Data.List.ReduceOption

/-!
# What the options leave out

The options of a comparison choose among what a full one finds, and change nothing else
(`options_project`).  Without the schemas, the changes of endpoints are left, as they were and in
their order.  Where summaries and descriptions are passed over, each list of differences loses the
differences that speak of these, and keeps all others in their order; a change is left out if it has
lost all its differences.

Which differences speak of summaries and descriptions cannot be told from their texts, as a status
or the name of a type may be any text.  So they are listed for themselves (`endpointWording`,
`schemaWording`), and a full list falls into them and what is left (`Splits`).  None of them is
breaking, which is why no verdict changes.
-/

namespace ApiCanon

namespace Diff

open Difference (breakingIn harmlessIn)

/-! ## Lists in two parts -/

/-- A list falls into two parts, each of them in the order of the list. -/
inductive Splits {α : Type} : List α → List α → List α → Prop
  | nil : Splits [] [] []
  | keep (a : α) {l kept dropped : List α} (rest : Splits l kept dropped) :
      Splits (a :: l) (a :: kept) dropped
  | drop (a : α) {l kept dropped : List α} (rest : Splits l kept dropped) :
      Splits (a :: l) kept (a :: dropped)

namespace Splits

variable {α β : Type} {l m kept kept' dropped dropped' : List α}

lemma refl (l : List α) : Splits l l [] := by
  induction l with
  | nil => exact .nil
  | cons a r ih => exact .keep a ih

lemma dropAll (l : List α) : Splits l [] l := by
  induction l with
  | nil => exact .nil
  | cons a r ih => exact .drop a ih

lemma append (h : Splits l kept dropped) (h' : Splits m kept' dropped') :
    Splits (l ++ m) (kept ++ kept') (dropped ++ dropped') := by
  induction h with
  | nil => exact h'
  | keep a _ ih => exact .keep a ih
  | drop a _ ih => exact .drop a ih

lemma flatMap {l : List β} {f g w : β → List α} (h : ∀ b ∈ l, Splits (f b) (g b) (w b)) :
    Splits (l.flatMap f) (l.flatMap g) (l.flatMap w) := by
  induction l with
  | nil => exact .nil
  | cons b r ih =>
    rw [List.flatMap_cons, List.flatMap_cons, List.flatMap_cons]
    exact (h b List.mem_cons_self).append (ih fun c hc => h c (List.mem_cons_of_mem b hc))

/-- What is in front of a list that falls apart is kept. -/
lemma keepBehind (h : Splits l kept dropped) (m : List α) :
    Splits (l ++ m) (kept ++ m) dropped := by
  have both := h.append (refl m)
  rwa [List.append_nil] at both

/-- A test that fails for all that is dropped does not see the difference. -/
lemma filter_eq (h : Splits l kept dropped) {p : α → Bool} (none : ∀ a ∈ dropped, p a = false) :
    l.filter p = kept.filter p := by
  induction h with
  | nil => rfl
  | keep a _ ih => simp only [List.filter_cons, ih none]
  | drop a _ ih =>
    obtain ⟨fails, none⟩ := List.forall_mem_cons.1 none
    simp only [List.filter_cons, fails, Bool.false_eq_true, if_false, ih none]

lemma length_eq (h : Splits l kept dropped) : l.length = kept.length + dropped.length := by
  induction h with
  | nil => rfl
  | keep a _ ih => simp only [List.length_cons, ih]; omega
  | drop a _ ih => simp only [List.length_cons, ih]; omega

/-- Nothing is kept exactly if all is dropped. -/
lemma kept_eq_nil_iff (h : Splits l kept dropped) : kept = [] ↔ l = dropped := by
  constructor
  · rintro rfl
    induction l generalizing dropped with
    | nil => cases h; rfl
    | cons a r ih =>
      cases h with
      | drop _ rest => rw [ih rest]
  · rintro rfl
    have lengths := h.length_eq
    exact List.length_eq_zero_iff.1 (by omega)

end Splits

/-! ## Differences of summaries and descriptions -/

/-- The description of a parameter has changed. -/
def parameterWording (p q : Parameter) : List Difference :=
  reportIf (p.description != q.description)
    (harmlessIn "parameter" s!"{parameterLabel q} description changed")

/-- The description of an old parameter has changed, if it has a counterpart. -/
def oldParameterWording (new : List Parameter) : Parameter × Option Nat → List Difference
  | (_, none) => []
  | (p, some i) =>
    match new[i]? with
    | some q => parameterWording p q
    | none => []

def parametersWording (old new : List Parameter) : List Difference :=
  (pairParameters new [] old).flatMap (oldParameterWording new)

def bodyWording : Option RequestBody → Option RequestBody → List Difference
  | some a, some b => reportIf (a.description != b.description)
      (harmlessIn "requestBody" "request body description changed")
  | _, _ => []

/-- The description of an old response has changed, if there is a new one of its status. -/
def oldResponseWording (new : List Response) (r : Response) : List Difference :=
  match new.find? fun n => n.status == r.status with
  | none => []
  | some n => reportIf (r.description != n.description)
      (harmlessIn "response" s!"response {r.status} description changed")

/-- The differences of two endpoints in summaries and descriptions. -/
def endpointWording (old new : Endpoint) : List Difference :=
  reportIf (old.summary != new.summary) (harmlessIn "summary" "summary changed") ++
    reportIf (old.description != new.description)
      (harmlessIn "description" "description changed") ++
    parametersWording old.parameters new.parameters ++
    bodyWording old.requestBody new.requestBody ++
    old.responses.flatMap (oldResponseWording new.responses)

/-- The description of an old property has changed, if it is still there. -/
def oldPropertyWording (new : SortedMap Property) (name : String) (p : Property) :
    List Difference :=
  match new.get? name with
  | none => []
  | some q => reportIf (p.description != q.description)
      (harmlessIn "property" s!"property '{name}' description changed")

/-- The differences of two schemas in descriptions. -/
def schemaWording (old new : Schema) : List Difference :=
  reportIf (old.description != new.description)
      (harmlessIn "description" "description changed") ++
    old.properties.entries.flatMap fun (k, p) => oldPropertyWording new.properties k p

/-! ### None of them breaks -/

lemma not_hasBreaking_parametersWording (old new : List Parameter) :
    ¬HasBreaking (parametersWording old new) := by
  rw [parametersWording, hasBreaking_flatMap]
  rintro ⟨⟨p, place⟩, -, breaks⟩
  cases place with
  | none => exact hasBreaking_nil breaks
  | some i => cases h : new[i]? <;> simp [oldParameterWording, h, parameterWording] at breaks

lemma not_hasBreaking_bodyWording (old new : Option RequestBody) :
    ¬HasBreaking (bodyWording old new) := by
  cases old <;> cases new <;> simp [bodyWording]

lemma not_hasBreaking_oldResponseWording (new : List Response) (r : Response) :
    ¬HasBreaking (oldResponseWording new r) := by
  unfold oldResponseWording
  split <;> simp

lemma not_hasBreaking_endpointWording (old new : Endpoint) :
    ¬HasBreaking (endpointWording old new) := by
  simp [endpointWording, hasBreaking_flatMap, not_hasBreaking_parametersWording,
    not_hasBreaking_bodyWording, not_hasBreaking_oldResponseWording]

lemma not_hasBreaking_schemaWording (old new : Schema) : ¬HasBreaking (schemaWording old new) := by
  have property : ∀ k p, ¬HasBreaking (oldPropertyWording new.properties k p) := by
    intro k p
    unfold oldPropertyWording
    split <;> simp
  simp [schemaWording, hasBreaking_flatMap, property]

/-! ## Comparisons fall apart -/

section Comparisons

variable {full quiet : DiffOptions} (looks : full.ignoreDescriptions = false)
  (passes : quiet.ignoreDescriptions = true)

include looks passes

/-- A difference of descriptions is reported by a full comparison only. -/
lemma splits_reportIf (c : Bool) (d : Difference) :
    Splits (reportIf (!full.ignoreDescriptions && c) d)
      (reportIf (!quiet.ignoreDescriptions && c) d) (reportIf c d) := by
  rw [looks, passes]
  exact .dropAll _

lemma splits_compareParameter (p q : Parameter) :
    Splits (compareParameter full p q) (compareParameter quiet p q) (parameterWording p q) :=
  (Splits.refl _).append (splits_reportIf looks passes _ _)

lemma splits_compareParameters (old new : List Parameter) :
    Splits (compareParameters full old new) (compareParameters quiet old new)
      (parametersWording old new) := by
  refine (Splits.flatMap ?_).keepBehind _
  rintro ⟨p, place⟩ -
  cases place with
  | none => exact .refl _
  | some i =>
    cases h : new[i]? with
    | none => simpa only [compareOldParameter, oldParameterWording, h] using Splits.nil
    | some q =>
      simpa only [compareOldParameter, oldParameterWording, h] using
        splits_compareParameter looks passes p q

lemma splits_compareRequestBody (old new : Option RequestBody) :
    Splits (compareRequestBody full old new) (compareRequestBody quiet old new)
      (bodyWording old new) := by
  cases old with
  | none => cases new <;> exact .refl _
  | some a =>
    cases new with
    | none => exact .refl _
    | some b => exact (Splits.refl _).append (splits_reportIf looks passes _ _)

lemma splits_compareOldResponse (new : List Response) (r : Response) :
    Splits (compareOldResponse full new r) (compareOldResponse quiet new r)
      (oldResponseWording new r) := by
  unfold compareOldResponse oldResponseWording
  cases new.find? fun n => n.status == r.status with
  | none => exact .refl _
  | some n => exact (Splits.refl _).append (splits_reportIf looks passes _ _)

lemma splits_compareResponses (old new : List Response) :
    Splits (compareResponses full old new) (compareResponses quiet old new)
      (old.flatMap (oldResponseWording new)) :=
  (Splits.flatMap fun r _ => splits_compareOldResponse looks passes new r).keepBehind _

theorem splits_compareEndpoints (old new : Endpoint) :
    Splits (compareEndpoints full old new) (compareEndpoints quiet old new)
      (endpointWording old new) := by
  have parameters := splits_compareParameters looks passes old.parameters new.parameters
  have body := splits_compareRequestBody looks passes old.requestBody new.requestBody
  have responses := splits_compareResponses looks passes old.responses new.responses
  unfold compareEndpoints endpointWording
  refine Splits.keepBehind (.keepBehind (.append (.append (.append (.keepBehind ?_ _) parameters)
    body) responses) _) _
  exact (splits_reportIf looks passes _ _).append (splits_reportIf looks passes _ _)

theorem splits_endpointDifferences (schemas : SortedMap Schema) (narrowed : List String)
    (old new : Endpoint) :
    Splits (endpointDifferences full schemas narrowed old new)
      (endpointDifferences quiet schemas narrowed old new) (endpointWording old new) :=
  (splits_compareEndpoints looks passes old new).keepBehind _

lemma splits_compareOldProperty (new : SortedMap Property) (name : String) (p : Property) :
    Splits (compareOldProperty full new name p) (compareOldProperty quiet new name p)
      (oldPropertyWording new name p) := by
  unfold compareOldProperty oldPropertyWording
  cases new.get? name with
  | none => exact .refl _
  | some q => exact (Splits.refl _).append (splits_reportIf looks passes _ _)

theorem splits_compareSchemas (old new : Schema) :
    Splits (compareSchemas full old new) (compareSchemas quiet old new)
      (schemaWording old new) := by
  unfold compareSchemas schemaWording
  refine Splits.keepBehind (.keepBehind (.keepBehind (.append ?_ (.flatMap ?_)) _) _) _
  · exact splits_reportIf looks passes _ _
  · exact fun p _ => splits_compareOldProperty looks passes new.properties p.1 p.2

end Comparisons

/-! ## What is left of a change -/

/-- A change without its record of differences. -/
def headline (c : Change) : Change := { c with differences := none }

/-- What is left of a change that records differences when some of these are passed over: nothing
exactly if these were all that it recorded, and otherwise a change of the same kind about the same
thing, with the same text if it breaks. -/
structure Pares (overlooked : List Difference) (c : Change) (left : Option Change) : Prop where
  record : ∃ ds rest, c.differences = some ds ∧ Splits ds rest overlooked ∧
    ∀ c' ∈ left, c'.differences = some rest
  gone : left = none ↔ c.differences = some overlooked
  about : ∀ c' ∈ left, c'.path = c.path ∧ c'.method = c.method ∧ c'.kind = c.kind
  kind : c.kind = .modified ∨ c.kind = .breaking
  breaking : c.kind = .breaking → ∃ c' ∈ left, c'.description = c.description

/-- What is left of a change of a comparison when summaries and descriptions are passed over.  A
change that tells of a thing in one description only is left as it is. -/
inductive Pared (old new : Ast) (c : Change) : Option Change → Prop
  | onesided (record : c.differences = none) : Pared old new c (some c)
  | endpoint {e f : Endpoint} (was : e ∈ old.endpoints) (still : f ∈ new.endpoints)
      (key : e.key = f.key) (about : c.key? = some f.key) {left : Option Change}
      (pares : Pares (endpointWording e f) c left) : Pared old new c left
  | schema {name : String} {s t : Schema} (was : old.schemas.get? name = some s)
      (still : new.schemas.get? name = some t) (path : c.path = schemaLocator name)
      (method : c.method = none) {left : Option Change} (pares : Pares (schemaWording s t) c left) :
      Pared old new c left

/-- The change of a thing in both descriptions. -/
def rolled (path : String) (method : Option Method) : List Difference → Option Change :=
  rollup fun kind text ds => ⟨kind, path, method, text, some ds⟩

variable {path : String} {method : Option Method} {ds rest w : List Difference} {c : Change}

lemma rolled_eq_some_iff : rolled path method ds = some c ↔ ds ≠ [] ∧
    c = if ds.filter (·.breaking) = [] then
      ⟨.modified, path, method, "; ".intercalate (ds.map (·.message)), some ds⟩
    else ⟨.breaking, path, method,
      "; ".intercalate ((ds.filter (·.breaking)).map (·.message)), some ds⟩ := by
  unfold rolled rollup
  simp only [List.isEmpty_iff]
  split_ifs <;> simp [*, eq_comm]

/-- The change of a list of differences is pared by what falls out of the list. -/
lemma pares_rolled (splits : Splits ds rest w) (harmless : ¬HasBreaking w)
    (h : rolled path method ds = some c) : Pares w c (rolled path method rest) := by
  have same : ds.filter (·.breaking) = rest.filter (·.breaking) :=
    splits.filter_eq ((not_hasBreaking_iff w).1 harmless)
  have gone : rolled path method rest = none ↔ ds = w :=
    (rollup_eq_none_iff _ rest).trans splits.kept_eq_nil_iff
  obtain ⟨-, rfl⟩ := rolled_eq_some_iff.1 h
  have record : ∀ c' ∈ rolled path method rest, c'.differences = some rest := by
    intro c' made
    obtain ⟨-, rfl⟩ := rolled_eq_some_iff.1 made
    split_ifs <;> rfl
  cases breaks : ds.filter (·.breaking) with
  | nil =>
    rw [if_pos rfl]
    refine ⟨⟨ds, rest, rfl, splits, record⟩, by simpa using gone, fun c' made => ?_, Or.inl rfl,
      nofun⟩
    obtain ⟨-, rfl⟩ := rolled_eq_some_iff.1 made
    rw [← same, breaks, if_pos rfl]
    exact ⟨rfl, rfl, rfl⟩
  | cons d r =>
    rw [if_neg (List.cons_ne_nil d r)]
    have left : rest ≠ [] := by
      rintro rfl
      rw [breaks] at same
      cases same
    have made : rolled path method rest =
        some ⟨.breaking, path, method, "; ".intercalate ((d :: r).map (·.message)), some rest⟩ :=
      rolled_eq_some_iff.2 ⟨left, by rw [← same, breaks, if_neg (List.cons_ne_nil d r)]⟩
    refine ⟨⟨ds, rest, rfl, splits, record⟩, by simpa using gone, fun c' hc' => ?_, Or.inr rfl,
      fun _ => ⟨_, made, rfl⟩⟩
    obtain rfl := Option.some.inj (made.symm.trans hc')
    exact ⟨rfl, rfl, rfl⟩

lemma rolled_eq_none (splits : Splits ds rest w) (h : rolled path method ds = none) :
    rolled path method rest = none := by
  obtain rfl : ds = [] := (rollup_eq_none_iff _ ds).1 h
  cases splits
  exact h

/-! ## What is left of a list of changes -/

/-- What is left of some changes, in order, if each leaves something or nothing. -/
def Leaves (R : Change → Option Change → Prop) (full quiet : List Change) : Prop :=
  ∃ left, List.Forall₂ R full left ∧ quiet = left.reduceOption

namespace Leaves

variable {R : Change → Option Change → Prop} {full quiet full' quiet' : List Change}

lemma append (h : Leaves R full quiet) (h' : Leaves R full' quiet') :
    Leaves R (full ++ full') (quiet ++ quiet') := by
  obtain ⟨left, each, rfl⟩ := h
  obtain ⟨left', each', rfl⟩ := h'
  exact ⟨left ++ left', List.rel_append each each', (List.reduceOption_append _ _).symm⟩

/-- Two passes over the same things leave of each other what they do thing by thing. -/
lemma filterMap {α : Type} {things : List α} {make make' : α → Option Change}
    (each : ∀ a ∈ things, (make a = none → make' a = none) ∧
      ∀ c, make a = some c → R c (make' a)) :
    Leaves R (things.filterMap make) (things.filterMap make') := by
  induction things with
  | nil => exact ⟨[], .nil, rfl⟩
  | cons a r ih =>
    obtain ⟨⟨silent, here⟩, others⟩ := List.forall_mem_cons.1 each
    obtain ⟨rest, behind, same⟩ := ih others
    cases made : make a with
    | none => exact ⟨rest, by simpa [made] using behind, by simpa [silent made] using same⟩
    | some c =>
      refine ⟨make' a :: rest, ?_, ?_⟩
      · rw [List.filterMap_cons_some made]
        exact .cons (here c made) behind
      · cases made' : make' a <;> simp [made', same]

/-- Of changes of a kind that are left as they are, as far as a view shows them, the same are
seen. -/
lemma filter_map_eq {β : Type} (h : Leaves R full quiet) {p : Change → Bool} {view : Change → β}
    (seen : ∀ c left, R c left → p c = true →
      ∃ c', left = some c' ∧ p c' = true ∧ view c' = view c)
    (unseen : ∀ c left, R c left → p c = false → ∀ c' ∈ left, p c' = false) :
    (quiet.filter p).map view = (full.filter p).map view := by
  obtain ⟨left, each, rfl⟩ := h
  induction each with
  | nil => rfl
  | @cons c l cs ls here _ ih =>
    cases kind : p c with
    | true =>
      obtain ⟨c', rfl, kind', same⟩ := seen c l here kind
      simp [kind, kind', same, ih]
    | false =>
      cases l with
      | none => simpa [kind] using ih
      | some c' => simpa [kind, unseen c _ here kind c' rfl] using ih

end Leaves

/-! ## Whole comparisons -/

section Changes

variable {old new : Ast}

/-- What is left of a change has its kind; and its text too, unless it is a modification. -/
lemma Pared.cases {left : Option Change} (h : Pared old new c left) :
    left = some c ∨ (c.kind = .modified ∧ ∀ c' ∈ left, c'.kind = .modified) ∨
      c.kind = .breaking ∧ ∃ c', left = some c' ∧ c'.kind = .breaking ∧
        headline c' = headline c := by
  have compared : ∀ {w left}, Pares w c left →
      (c.kind = .modified ∧ ∀ c' ∈ left, c'.kind = .modified) ∨
        c.kind = .breaking ∧ ∃ c', left = some c' ∧ c'.kind = .breaking ∧
          headline c' = headline c := by
    intro w left pares
    rcases pares.kind with kind | kind
    · exact Or.inl ⟨kind, fun c' hc' => (pares.about c' hc').2.2.trans kind⟩
    · obtain ⟨c', hc', text⟩ := pares.breaking kind
      obtain ⟨path, method, kind'⟩ := pares.about c' hc'
      refine Or.inr ⟨kind, c', hc', kind'.trans kind, ?_⟩
      simp only [headline, kind', path, method, text]
  cases h with
  | onesided record => exact Or.inl rfl
  | endpoint was still key about pares => exact Or.inr (compared pares)
  | schema was still path method pares => exact Or.inr (compared pares)

/-- Of the changes of a kind other than modifications the same are left, as far as a view shows
them; breaking changes lose a part of their record. -/
lemma Leaves.view_eq {full quiet : List Change} (h : Leaves (Pared old new) full quiet)
    {k : ChangeKind} (other : k ≠ .modified) {β : Type} {v : Change → β}
    (breaking : k = .breaking → ∀ c c', headline c' = headline c → v c' = v c) :
    (quiet.filter (·.kind == k)).map v = (full.filter (·.kind == k)).map v := by
  refine h.filter_map_eq (fun c left pared kind => ?_) (fun c left pared kind c' hc' => ?_)
  · have kind := eq_of_beq kind
    rcases pared.cases with rfl | ⟨modified, -⟩ | ⟨breaks, c', rfl, breaks', same⟩
    · exact ⟨c, rfl, by simpa using kind, rfl⟩
    · exact absurd (kind.symm.trans modified) other
    · have same := breaking (kind.symm.trans breaks) c c' same
      exact ⟨c', rfl, by simp [breaks', ← kind, breaks], same⟩
  · have kind : c.kind ≠ k := by simpa using kind
    rcases pared.cases with rfl | ⟨-, modified⟩ | ⟨breaks, c'', rfl, breaks', -⟩
    · simpa [Option.some.inj hc'] using kind
    · simpa [modified c' hc'] using other.symm
    · obtain rfl := Option.some.inj hc'
      simpa [breaks', ← breaks] using kind

variable {full quiet : DiffOptions} (looks : full.ignoreDescriptions = false)
  (passes : quiet.ignoreDescriptions = true)

include looks passes

lemma endpoints_leave (valid : old.Valid) (narrowed : List String) :
    Leaves (Pared old new) (new.endpoints.filterMap (endpointChange? full old narrowed))
      (new.endpoints.filterMap (endpointChange? quiet old narrowed)) := by
  refine .filterMap fun f hf => ?_
  by_cases known : f.key ∈ old.endpoints.map Endpoint.key
  · obtain ⟨e, he, key⟩ := List.mem_map.1 known
    have splits := splits_endpointDifferences looks passes old.schemas narrowed e f
    rw [endpointChange?_of_shared _ valid narrowed he key,
      endpointChange?_of_shared _ valid narrowed he key]
    refine ⟨rolled_eq_none splits, fun c made => ?_⟩
    exact .endpoint he hf key (endpointRollup_eq_some made).1
      (pares_rolled splits (not_hasBreaking_endpointWording e f) made)
  · rw [endpointChange?_of_fresh _ narrowed known, endpointChange?_of_fresh _ narrowed known]
    exact ⟨id, fun c made => Option.some.inj made ▸ .onesided rfl⟩

omit looks passes in
lemma removals_leave :
    Leaves (Pared old new) (old.endpoints.filterMap (removal? new))
      (old.endpoints.filterMap (removal? new)) := by
  refine .filterMap fun e _ => ⟨id, fun c made => ?_⟩
  rw [made]
  cases (removal?_eq_some made).2 with
  | removed _ _ _ record => exact .onesided record
  | added fresh => exact absurd trivial fresh
  | differs _ still =>
    rw [(removal?_eq_none_iff new e).2 still] at made
    cases made

lemma schemas_leave :
    Leaves (Pared old new) (schemaChanges full old.schemas new.schemas)
      (schemaChanges quiet old.schemas new.schemas) := by
  refine .filterMap fun name _ => ?_
  unfold schemaChange?
  cases was : old.schemas.get? name with
  | none =>
    cases new.schemas.get? name with
    | none => exact ⟨id, nofun⟩
    | some t => exact ⟨id, fun c made => Option.some.inj made ▸ .onesided rfl⟩
  | some s =>
    cases still : new.schemas.get? name with
    | none => exact ⟨id, fun c made => Option.some.inj made ▸ .onesided rfl⟩
    | some t =>
      have splits := splits_compareSchemas looks passes s t
      refine ⟨rolled_eq_none splits, fun c made => ?_⟩
      obtain ⟨kind, text, about, -⟩ := rollup_eq_some made
      exact .schema was still (congrArg Change.path about) (congrArg Change.method about)
        (pares_rolled splits (not_hasBreaking_schemaWording s t) made)

theorem changes_leave (valid : old.Valid) (same : full.includeSchemas = quiet.includeSchemas) :
    Leaves (Pared old new) (changes full old new) (changes quiet old new) := by
  refine ((endpoints_leave looks passes valid _).append removals_leave).append ?_
  rw [same]
  cases quiet.includeSchemas with
  | false => exact ⟨[], .nil, rfl⟩
  | true => exact schemas_leave looks passes

end Changes

/-- Without the schemas, the changes of endpoints are left. -/
lemma changes_without_schemas {old : Ast} (valid : old.Valid) (new : Ast) (quietly : Bool) :
    changes ⟨quietly, false⟩ old new =
      (changes ⟨quietly, true⟩ old new).filter fun c => !c.isSchemaChange := by
  have endpoints : ∀ c ∈ new.endpoints.filterMap (endpointChange? ⟨quietly, true⟩ old
      (narrowedSchemas old.schemas new.schemas)) ++ old.endpoints.filterMap (removal? new),
      c.isSchemaChange = false :=
    fun _ hc => isSchemaChange_of_mem_endpoints _ valid hc
  have schemas : ∀ c ∈ schemaChanges ⟨quietly, true⟩ old.schemas new.schemas,
      c.isSchemaChange = true :=
    fun _ hc => isSchemaChange_of_mem_schemaChanges _ hc
  simp only [changes, if_true]
  rw [List.filter_append, List.filter_eq_self.2 fun c hc => by simp [endpoints c hc],
    List.filter_eq_nil_iff.2 fun c hc => by simp [schemas c hc]]
  rfl

/-- **The options of a comparison choose among what a full one finds.**  Without the schemas, the
changes of endpoints are left, in their order.  Where summaries and descriptions are passed over,
each list of differences loses those that speak of them and keeps the others in order; the changes
that are added or removed are the same, and so are the breaking ones but for their records; and a
change is left out exactly if all that it recorded is passed over. -/
theorem options_project {old new : Ast} (validOld : fault? .old old = none)
    (validNew : fault? .new new = none) :
    (∀ quietly, ∃ r r', diff ⟨quietly, true⟩ old new = .ok r ∧
        diff ⟨quietly, false⟩ old new = .ok r' ∧
        r'.changes = r.changes.filter fun c => !c.isSchemaChange) ∧
      ∀ schemas, ∃ r r', diff ⟨false, schemas⟩ old new = .ok r ∧
        diff ⟨true, schemas⟩ old new = .ok r' ∧
        r'.changesOf .added = r.changesOf .added ∧
        r'.changesOf .removed = r.changesOf .removed ∧
        (r'.changesOf .breaking).map headline = (r.changesOf .breaking).map headline ∧
        Leaves (Pared old new) r.changes r'.changes ∧
        (∀ e f, Splits (compareEndpoints ⟨false, schemas⟩ e f)
          (compareEndpoints ⟨true, schemas⟩ e f) (endpointWording e f)) ∧
        ∀ s t, Splits (compareSchemas ⟨false, schemas⟩ s t) (compareSchemas ⟨true, schemas⟩ s t)
          (schemaWording s t) := by
  have hold := (fault?_eq_none_iff .old old).1 validOld
  have hnew := (fault?_eq_none_iff .new new).1 validNew
  refine ⟨fun quietly => ⟨_, _, diff_of_valid _ hold hnew, diff_of_valid _ hold hnew,
    changes_without_schemas hold new quietly⟩, fun schemas => ?_⟩
  have leaves : Leaves (Pared old new) (changes ⟨false, schemas⟩ old new)
      (changes ⟨true, schemas⟩ old new) := changes_leave rfl rfl hold rfl
  have added := leaves.view_eq (k := .added) (v := id) nofun nofun
  have removed := leaves.view_eq (k := .removed) (v := id) nofun nofun
  have breaking := leaves.view_eq (k := .breaking) nofun fun _ _ _ same => same
  rw [List.map_id, List.map_id] at added removed
  exact ⟨_, _, diff_of_valid _ hold hnew, diff_of_valid _ hold hnew, added, removed, breaking,
    leaves, splits_compareEndpoints rfl rfl, splits_compareSchemas rfl rfl⟩

/-- A leaflet of two endpoints with the same summary.  The first takes a text, which may be
required. -/
def leaflet (summary : String) (required : Bool) : Ast where
  endpoints := [
    { Endpoint.plain .get "/search" with
      summary := some summary
      parameters := [{ Parameter.plain "q" .query (.primitive "string") with
        required := required }] },
    { Endpoint.plain .get "/latest" with summary := some summary }]
  schemas := .empty
  metadata := (Draft.start "openapi").ast.metadata
  unresolved := false

/-- Where no schema is narrowed, an endpoint differs in what it says of itself only. -/
lemma endpointDifferences_of_no_narrowed (o : DiffOptions) (schemas : SortedMap Schema)
    (old new : Endpoint) :
    endpointDifferences o schemas [] old new = compareEndpoints o old new := by
  simp [endpointDifferences]

lemma changes_leaflet (quietly : Bool) :
    (changes ⟨quietly, false⟩ (leaflet "Finds" false) (leaflet "Looks up" true)).length =
      if quietly then 1 else 2 := by
  have narrowed : narrowedSchemas (leaflet "Finds" false).schemas
      (leaflet "Looks up" true).schemas = [] := rfl
  unfold changes endpointChange?
  simp only [narrowed, endpointDifferences_of_no_narrowed]
  cases quietly <;> decide

/-- One endpoint is changed in its summary only, and its change is left out; the other one breaks
whether or not summaries are looked at. -/
theorem options_project_leaflet :
    ∃ r r', diff ⟨false, false⟩ (leaflet "Finds" false) (leaflet "Looks up" true) = .ok r ∧
      diff ⟨true, false⟩ (leaflet "Finds" false) (leaflet "Looks up" true) = .ok r' ∧
      r.changes.length = 2 ∧ r'.changes.length = 1 ∧
      (r'.changesOf .breaking).map headline = (r.changesOf .breaking).map headline := by
  have passesOld : fault? .old (leaflet "Finds" false) = none := by decide
  have passesNew : fault? .new (leaflet "Looks up" true) = none := by decide
  obtain ⟨r, r', full, quiet, -, -, breaking, -⟩ := (options_project passesOld passesNew).2 false
  have valid := (fault?_eq_none_iff .old _).1 passesOld
  have valid' := (fault?_eq_none_iff .new _).1 passesNew
  refine ⟨r, r', full, quiet, ?_, ?_, breaking⟩
  · obtain rfl := Except.ok.inj ((diff_of_valid _ valid valid').symm.trans full)
    exact changes_leaflet false
  · obtain rfl := Except.ok.inj ((diff_of_valid _ valid valid').symm.trans quiet)
    exact changes_leaflet true

end Diff

end ApiCanon
