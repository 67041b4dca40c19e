import ApiCanon.Proofs.Model.Documents
import ApiCanon.Source.Reading
import ApiCanon.Source.Route

/-!
# Drafts

What a reader builds is sound (`Draft.Sound`): its endpoints have distinct keys and its schemas
stand under their own names, because a draft refuses a second endpoint of one key and a second
schema of one name.  Documents get into a draft with the endpoints that are added to it, and under a
key of their own, so that no object in it has two fields of one name if none has in what is added.

Whatever else holds of all endpoints that are added holds of those of the draft.  Completing an
endpoint changes its parameters and its tags only.
-/

namespace ApiCanon

open Json (Value)

/-- No object in an example of an endpoint has two fields of one name. -/
def Endpoint.Distinct (e : Endpoint) : Prop := ∀ r ∈ e.responses, r.Distinct

/-- An endpoint with a path that is not blank, and without an object in its examples that has two
fields of one name. -/
structure Endpoint.Proper (e : Endpoint) : Prop where
  distinct : e.Distinct
  visible : Text.isBlankText e.path = false

lemma Response.distinct_of_none {r : Response} (h : r.example? = none) : r.Distinct := by
  intro v hv
  rw [h] at hv
  cases hv

lemma Response.plain_distinct (status : String) : (Response.plain status).Distinct :=
  distinct_of_none rfl

lemma Endpoint.plain_distinct (m : Method) (path : String) : (Endpoint.plain m path).Distinct :=
  nofun

/-- A path in the common form begins with a slash. -/
lemma Route.isBlankText_normalizeChars (path : List Char) :
    Text.isBlankText (String.ofList (normalizeChars path)) = false := by
  have head := normalizeChars_head path
  cases h : normalizeChars path with
  | nil => simp [h] at head
  | cons c r =>
    obtain rfl : c = '/' := by simpa [h] using head
    rw [Text.isBlankText, String.toList_ofList, Text.allBlank, List.all_cons]
    rfl

lemma Endpoint.plain_proper (m : Method) (path : List Char) :
    (Endpoint.plain m (String.ofList (Route.normalizeChars path))).Proper where
  distinct := plain_distinct m _
  visible := Route.isBlankText_normalizeChars path

/-! ## Completed endpoints -/

/-- The settings change nothing of an endpoint but its tags. -/
lemma Settings.finish_eq (s : Settings) (e : Endpoint) :
    ∃ tags, s.finish e = { e with tags := tags } := by
  unfold finish
  split
  · split_ifs
    · exact ⟨_, rfl⟩
    · exact ⟨e.tags, rfl⟩
  · exact ⟨e.tags, rfl⟩

lemma addPlaceholder_eq (describe : String → Option String) (e : Endpoint) (name : String) :
    ∃ parameters, addPlaceholder describe e name = { e with parameters := parameters } := by
  unfold addPlaceholder
  split_ifs
  · exact ⟨e.parameters, rfl⟩
  · exact ⟨_, rfl⟩

/-- The placeholders of its path change nothing of an endpoint but its parameters. -/
lemma fillPathParameters_eq (describe : String → Option String) (e : Endpoint) :
    ∃ parameters, fillPathParameters describe e = { e with parameters := parameters } := by
  unfold fillPathParameters
  generalize pathParameters e.path = names
  induction names generalizing e with
  | nil => exact ⟨e.parameters, rfl⟩
  | cons name names ih =>
    obtain ⟨_, one⟩ := addPlaceholder_eq describe e name
    obtain ⟨parameters, rest⟩ := ih (addPlaceholder describe e name)
    exact ⟨parameters, by rw [List.foldl_cons, rest, one]⟩

lemma Settings.key_finish (s : Settings) (e : Endpoint) : (s.finish e).key = e.key := by
  obtain ⟨tags, finished⟩ := s.finish_eq e
  rw [finished]
  rfl

lemma Endpoint.Distinct.finish {e : Endpoint} (h : e.Distinct) (s : Settings) :
    (s.finish e).Distinct := by
  obtain ⟨tags, finished⟩ := s.finish_eq e
  rw [finished]
  exact h

lemma Endpoint.Proper.finish {e : Endpoint} (h : e.Proper) (s : Settings) :
    (s.finish e).Proper := by
  obtain ⟨tags, finished⟩ := s.finish_eq e
  rw [finished]
  exact ⟨h.distinct, h.visible⟩

lemma Endpoint.Proper.fillPathParameters {e : Endpoint} (h : e.Proper)
    (describe : String → Option String) : (fillPathParameters describe e).Proper := by
  obtain ⟨parameters, filled⟩ := fillPathParameters_eq describe e
  rw [filled]
  exact ⟨h.distinct, h.visible⟩

/-- An endpoint as readers of routes add it to a draft: with a parameter for every placeholder of
its path, and with the default tag if it has none. -/
def Settings.complete (s : Settings) (e : Endpoint) : Endpoint :=
  s.finish (fillPathParameters (fun _ => none) e)

lemma Endpoint.Proper.complete {e : Endpoint} (h : e.Proper) (s : Settings) :
    (s.complete e).Proper :=
  (h.fillPathParameters _).finish s

/-! ## Drafts -/

/-- What every step of a loop adds to a property is what the loop adds to it. -/
lemma foldl_iff {α β : Type} {P : β → Prop} {Q : α → Prop} {f : β → α → β}
    (step : ∀ b a, P (f b a) ↔ P b ∨ Q a) (l : List α) (b : β) :
    P (l.foldl f b) ↔ P b ∨ ∃ a ∈ l, Q a := by
  induction l generalizing b with
  | nil => simp
  | cons a l ih => rw [List.foldl_cons, ih, step, List.exists_mem_cons_iff, or_assoc]

/-- The keys of the endpoints. -/
def Draft.keys (d : Draft) : List EndpointKey := d.ast.endpoints.map Endpoint.key

/-- What a draft guarantees, and a property that all its endpoints have. -/
structure Draft.Sound (E : Endpoint → Prop) (d : Draft) : Prop where
  endpoints : ∀ e ∈ d.ast.endpoints, E e
  keys : d.keys.Nodup
  names : ∀ k s, d.ast.schemas.get? k = some s → s.name = k
  extra : d.ast.metadata.Distinct

lemma Draft.hasEndpoint_iff (d : Draft) (k : EndpointKey) :
    d.hasEndpoint k = true ↔ k ∈ d.keys := by
  simp [hasEndpoint, keys]

/-- The key of an endpoint comes behind the others, unless it is there. -/
lemma Draft.keys_addEndpoint (d : Draft) (e : Endpoint) :
    (d.addEndpoint e).1.keys = d.keys ++ if e.key ∈ d.keys then [] else [e.key] := by
  simp only [addEndpoint, hasEndpoint_iff]
  split_ifs
  · exact (List.append_nil _).symm
  · exact List.map_append

/-- An endpoint is reported as new unless its key is there. -/
lemma Draft.snd_addEndpoint (d : Draft) (e : Endpoint) :
    (d.addEndpoint e).2 = decide (e.key ∉ d.keys) := by
  simp only [addEndpoint, hasEndpoint_iff]
  split_ifs with known <;> simp [known]

/-- An endpoint is there afterwards, or another one of its key, and nothing is lost. -/
lemma Draft.mem_keys_addEndpoint_iff (d : Draft) (e : Endpoint) (k : EndpointKey) :
    k ∈ (d.addEndpoint e).1.keys ↔ k ∈ d.keys ∨ k = e.key := by
  rw [keys_addEndpoint, List.mem_append]
  split_ifs with known
  · rw [or_iff_left List.not_mem_nil]
    exact ⟨Or.inl, fun h => h.elim id fun same => same ▸ known⟩
  · rw [List.mem_singleton]

lemma Draft.keys_addSchema (d : Draft) (x : Schema) : (d.addSchema x).1.keys = d.keys := by
  unfold addSchema
  split_ifs <;> rfl

namespace Draft.Sound

variable {E : Endpoint → Prop} {d : Draft}

lemma start (sourceType : String) : (Draft.start sourceType).Sound E where
  endpoints := fun _ he => absurd he List.not_mem_nil
  keys := List.nodup_nil
  names := by
    intro k s found
    rw [Draft.start, SortedMap.get?_empty] at found
    cases found
  extra := fun _ hv => absurd hv List.not_mem_nil

lemma project (h : d.Sound E) (name version : Option String) : (d.project name version).Sound E :=
  ⟨h.endpoints, h.keys, h.names, h.extra⟩

lemma put (h : d.Sound E) (key : String) {v : Value} (hv : v.Distinct) :
    (d.extra key v).Sound E := by
  refine ⟨h.endpoints, h.keys, h.names, fun w hw => ?_⟩
  obtain ⟨k, hk⟩ := (SortedMap.mem_values_iff _ w).1 hw
  have found : (d.ast.metadata.extra.insert key v).get? k = some w := hk
  rw [SortedMap.get?_insert] at found
  split_ifs at found
  · exact Option.some.inj found ▸ hv
  · exact h.extra w ((SortedMap.mem_values_iff _ w).2 ⟨k, found⟩)

lemma addEndpoint (h : d.Sound E) {e : Endpoint} (he : E e) : (d.addEndpoint e).1.Sound E := by
  unfold Draft.addEndpoint
  split_ifs with known
  · exact h
  · refine ⟨fun e' he' => ?_, ?_, h.names, h.extra⟩
    · rcases List.mem_append.1 he' with he' | he'
      · exact h.endpoints e' he'
      · exact List.mem_singleton.1 he' ▸ he
    · rw [d.hasEndpoint_iff] at known
      rw [Draft.keys, List.map_append, List.map_singleton]
      exact List.nodup_append.2 ⟨h.keys, List.nodup_singleton _, fun k hk l hl same =>
        known (List.mem_singleton.1 hl ▸ same ▸ hk)⟩

lemma addSchema (h : d.Sound E) (x : Schema) : (d.addSchema x).1.Sound E := by
  unfold Draft.addSchema
  split_ifs
  · exact h
  · refine ⟨h.endpoints, h.keys, fun k s found => ?_, h.extra⟩
    dsimp only at found
    rw [SortedMap.get?_insert] at found
    split_ifs at found with same
    · exact Option.some.inj found ▸ same.symm
    · exact h.names k s found

end Draft.Sound

/-! ## Drafts with warnings -/

namespace Progress

lemma start_sound {E : Endpoint → Prop} (tag : String) (s : Settings) :
    (Progress.start tag s).draft.Sound E :=
  (Draft.Sound.start tag).project _ _

lemma addEndpoint_draft (s : Settings) (line : Nat) (p : Progress) (e : Endpoint) :
    (p.addEndpoint s line e).draft = (p.draft.addEndpoint (s.complete e)).1 := by
  unfold addEndpoint
  dsimp only
  split_ifs <;> rfl

lemma addSchema_draft (what : String) (line? : Option Nat) (p : Progress) (x : Schema) :
    (p.addSchema what line? x).draft = (p.draft.addSchema x).1 := by
  unfold addSchema
  dsimp only
  split_ifs <;> rfl

lemma addEndpoint_sound {E : Endpoint → Prop} {p : Progress} (h : p.draft.Sound E) {s : Settings}
    {e : Endpoint} (he : E (s.complete e)) (line : Nat) :
    (p.addEndpoint s line e).draft.Sound E := by
  rw [addEndpoint_draft]
  exact h.addEndpoint he

lemma addSchema_sound {E : Endpoint → Prop} {p : Progress} (h : p.draft.Sound E) (what : String)
    (line? : Option Nat) (x : Schema) : (p.addSchema what line? x).draft.Sound E := by
  rw [addSchema_draft]
  exact h.addSchema x

lemma foldl_warn_draft (warnings : List Issue) (p : Progress) :
    (warnings.foldl warn p).draft = p.draft := by
  induction warnings generalizing p with
  | nil => rfl
  | cons i warnings ih => rw [List.foldl_cons, ih, warn]

lemma foldl_addEndpoint_sound {E : Endpoint → Prop} {p : Progress} (h : p.draft.Sound E)
    {s : Settings} {es : List Endpoint} (hes : ∀ e ∈ es, E (s.complete e)) (line : Nat) :
    (es.foldl (addEndpoint s line) p).draft.Sound E :=
  List.foldlRecOn (motive := fun q : Progress => q.draft.Sound E) es _ h
    fun _ hq e he => addEndpoint_sound hq (hes e he) line

lemma foldl_addSchema_sound {E : Endpoint → Prop} {p : Progress} (h : p.draft.Sound E)
    (what : String) (line? : Option Nat) (xs : List Schema) :
    (xs.foldl (addSchema what line?) p).draft.Sound E :=
  List.foldlRecOn (motive := fun q : Progress => q.draft.Sound E) xs _ h
    fun _ hq x _ => addSchema_sound hq what line? x

end Progress

/-! ## Readings -/

/-- The description, if there is one, is that of a sound draft. -/
def Reading.Sound (E : Endpoint → Prop) (r : Reading) : Prop :=
  ∀ a ∈ r.ast, (Draft.mk a).Sound E

/-- No object in the description, if there is one, has two fields of one name. -/
def Reading.Distinct (r : Reading) : Prop := ∀ a ∈ r.ast, a.Distinct ∧ a.metadata.Distinct

lemma Reading.success_sound {E : Endpoint → Prop} {d : Draft} (h : d.Sound E)
    (warnings : List Issue) : (Reading.success d.ast warnings).Sound E :=
  fun _ ha => Option.some.inj ha ▸ h

lemma Reading.failure_sound {E : Endpoint → Prop} (e : Issue) : (Reading.failure e).Sound E :=
  nofun

lemma Reading.Sound.mono {E F : Endpoint → Prop} {r : Reading} (h : r.Sound E)
    (weaker : ∀ e, E e → F e) : r.Sound F :=
  fun a ha => { h a ha with endpoints := fun e he => weaker e ((h a ha).endpoints e he) }

end ApiCanon
