import ApiCanon.OpenApi.Reader
import ApiCanon.Proofs.Json.Reading
import ApiCanon.Proofs.Source.Drafts
import ApiCanon.Proofs.Yaml.Values

/-!
# Descriptions of API documents

The examples and the servers of a description are parts of the document that is read, or texts put
together from it.  So no object in them has two fields of one name, as none in the document has.
The endpoints are exactly the operations that the document declares (`mem_keys_iff_declares`).
-/

namespace ApiCanon.OpenApi

open Json (Value Fields)

lemma load_distinct {text : List Char} {doc : Value} (h : load text = .ok doc) : doc.Distinct := by
  unfold load at h
  split at h
  · cases hr : Json.read text with
    | ok v =>
      rw [hr] at h
      exact Except.ok.inj h ▸ Json.distinct_of_read hr
    | error e =>
      rw [hr] at h
      cases h
  · cases hr : Yaml.read text with
    | ok v =>
      rw [hr] at h
      exact Except.ok.inj h ▸ Yaml.distinct_of_read hr
    | error e =>
      rw [hr] at h
      cases h

lemma open?_distinct {text : List Char} {doc : Value} {v : Version}
    (h : open? text = .ok (doc, v)) : doc.Distinct := by
  unfold open? at h
  cases hl : load text with
  | error e =>
    rw [hl] at h
    cases h
  | ok d =>
    rw [hl] at h
    dsimp only [bind, Except.bind] at h
    split at h
    · obtain ⟨rfl, -⟩ := Prod.mk.inj (Except.ok.inj h)
      exact load_distinct hl
    · cases h

/-! ## Parts of the document -/

variable {doc : Value}

lemma resolve_distinct {v w : Value} (hd : doc.Distinct) (hv : v.Distinct)
    (h : resolve doc v = .ok w) : w.Distinct := by
  unfold resolve at h
  split at h
  · exact Except.ok.inj h ▸ hv
  · split at h
    · next target found =>
      obtain ⟨p, -, hp⟩ := Option.bind_eq_some_iff.1 found
      exact Except.ok.inj h ▸ hd.pointer? hp
    · cases h

lemma asObjectAt {v : Value} {k : String} {f : Fields} (hv : v.Distinct)
    (h : (v.get? k).bind Value.asObject? = some f) : (Value.object f).Distinct := by
  obtain ⟨w, hw, hf⟩ := Option.bind_eq_some_iff.1 h
  exact (hv.get? hw).asObject? hf

lemma asArrayAt {v : Value} {k : String} {a : List Value} (hv : v.Distinct)
    (h : (v.get? k).bind Value.asArray? = some a) : ∀ w ∈ a, w.Distinct := by
  obtain ⟨w, hw, ha⟩ := Option.bind_eq_some_iff.1 h
  exact (hv.get? hw).asArray? ha

lemma preferredMedia?_distinct {raw : Value} {m : String × Value} (hr : raw.Distinct)
    (h : preferredMedia? raw = some m) : m.2.Distinct := by
  unfold preferredMedia? at h
  cases hc : (raw.get? "content").bind Value.asObject? with
  | none =>
    rw [hc] at h
    cases h
  | some c =>
    have content := asObjectAt hr hc
    rw [hc] at h
    dsimp only at h
    cases hj : Fields.get? jsonMediaType c with
    | some v =>
      rw [hj] at h
      exact Option.some.inj h ▸ content.value _ (Fields.mem_of_get? hj)
    | none =>
      rw [hj] at h
      exact content.value m (List.mem_of_mem_head? h)

lemma mediaExample?_distinct {media e : Value} (hm : media.Distinct)
    (h : mediaExample? media = some e) : e.Distinct := by
  unfold mediaExample? at h
  split at h
  · next own => exact Option.some.inj h ▸ hm.get? own
  · split at h
    · next several =>
      exact ((asObjectAt hm several).value _ List.mem_cons_self).get? h
    · cases h

lemma buildResponse_distinct {raw : Value} (hr : raw.Distinct) (v : Version) (status : String) :
    (buildResponse v status raw).Distinct := by
  intro e he
  cases v with
  | two =>
    have found : raw.pointer? "/examples/application~1json".toList = some e := he
    exact hr.pointer? found
  | three =>
    obtain ⟨media, hm, found⟩ := Option.bind_eq_some_iff.1 he
    obtain ⟨m, preferred, rfl⟩ := Option.map_eq_some_iff.1 hm
    exact mediaExample?_distinct (preferredMedia?_distinct hr preferred) found

lemma operationResponses_distinct {operation : Value} (hd : doc.Distinct)
    (ho : operation.Distinct) (v : Version) :
    ∀ r ∈ (operationResponses doc v operation).value, r.Distinct := by
  intro r hr
  obtain ⟨b, hb, rfl⟩ := List.mem_map.1 hr
  obtain ⟨⟨status, raw⟩, hp, rfl⟩ := List.mem_map.1 hb
  have part : raw.Distinct := by
    cases hf : (operation.get? "responses").bind Value.asObject? with
    | none =>
      rw [hf] at hp
      cases hp
    | some f =>
      rw [hf] at hp
      exact (asObjectAt ho hf).value _ hp
  cases ht : resolve doc raw with
  | ok t =>
    simp only [ht]
    exact buildResponse_distinct (resolve_distinct hd part ht) v status
  | error e =>
    simp only [ht]
    exact Response.plain_distinct status

lemma buildEndpoint_distinct {operation : Value} (hd : doc.Distinct) (ho : operation.Distinct)
    (v : Version) (m : Method) (path : String) (shared : List Value) :
    (buildEndpoint doc v m path shared operation).value.Distinct :=
  operationResponses_distinct hd ho v

/-! ## Operations -/

/-- The document has an operation of a verb under a path that is not empty. -/
def Declares (doc : Value) (k : EndpointKey) : Prop :=
  ∃ paths item field operation, (doc.get? "paths").bind Value.asObject? = some paths ∧
    (k.path, .object item) ∈ paths ∧ k.path ≠ "" ∧ (field, operation) ∈ item ∧
    operationMethod? field = some k.method

lemma pathOperations_distinct {item : Fields} (hd : doc.Distinct)
    (hi : (Value.object item).Distinct) (v : Version) (path : String) :
    ∀ b ∈ pathOperations doc v path item, b.value.Distinct := by
  intro b hb
  obtain ⟨⟨key, operation⟩, hp, hb⟩ := List.mem_filterMap.1 hb
  obtain ⟨m, -, rfl⟩ := Option.map_eq_some_iff.1 hb
  exact buildEndpoint_distinct hd (hi.value _ hp) v m path _

/-- The operations of a path are built under its keys. -/
lemma exists_pathOperations_iff (v : Version) (path : String) (item : Fields) (k : EndpointKey) :
    (∃ b ∈ pathOperations doc v path item, b.value.key = k) ↔
      k.path = path ∧ ∃ p ∈ item, operationMethod? p.1 = some k.method := by
  obtain ⟨method, path'⟩ := k
  constructor
  · rintro ⟨b, hb, same⟩
    obtain ⟨⟨field, operation⟩, hp, hb⟩ := List.mem_filterMap.1 hb
    obtain ⟨m, verb, rfl⟩ := Option.map_eq_some_iff.1 hb
    obtain ⟨rfl, rfl⟩ := EndpointKey.mk.inj same
    exact ⟨rfl, _, hp, verb⟩
  · rintro ⟨rfl, ⟨field, operation⟩, hp, verb⟩
    exact ⟨_, List.mem_filterMap.2 ⟨_, hp, Option.map_eq_some_iff.2 ⟨method, verb, rfl⟩⟩, rfl⟩

/-! ## The description -/

lemma servers?_distinct {urls : Value} (hd : doc.Distinct) {v : Version}
    (h : servers? doc v = some urls) : urls.Distinct := by
  cases v with
  | two =>
    obtain ⟨host, -, rfl⟩ := Option.map_eq_some_iff.1 h
    exact .array fun w hw => List.mem_singleton.1 hw ▸ .string _
  | three =>
    rw [servers?] at h
    split at h
    · next l hl =>
      dsimp only at h
      split_ifs at h
      refine Option.some.inj h ▸ .array fun w hw => ?_
      obtain ⟨s, hs, hw⟩ := List.mem_filterMap.1 hw
      exact (asArrayAt hd hl s hs).get? hw
    · cases h

section Soundness

variable {E : Endpoint → Prop}

lemma preamble_sound (hd : doc.Distinct) (kind : SourceKind) (v : Version) (s : Settings) :
    (preamble kind doc v s).Sound E := by
  have project : ∀ a b : Option String,
      ((((Draft.start kind.tag).project a b).project s.projectName s.projectVersion).extra
        "specVersion" (.string v.label)).Sound E :=
    fun a b => (((Draft.Sound.start _).project a b).project _ _).put _ (.string _)
  unfold preamble
  refine List.foldlRecOn (motive := Draft.Sound E) _ _ ?_ fun d hd x _ => hd.addSchema _
  split
  · next urls hu => exact (project _ _).put _ (servers?_distinct hd hu)
  · exact project _ _

lemma addPath_sound {p : Progress} {path : String} {item : Value} {v : Version} {s : Settings}
    (hp : p.draft.Sound E)
    (built : ∀ f, item = .object f → ∀ b ∈ pathOperations doc v path f, E (s.finish b.value)) :
    (p.addPath doc v s (path, item)).draft.Sound E := by
  unfold Progress.addPath
  dsimp only
  split_ifs
  · exact hp
  · split
    · next f =>
      exact List.foldlRecOn (motive := fun q : Progress => q.draft.Sound E) _ _ hp
        fun q hq b hb => hq.addEndpoint (built f rfl b hb)
    · exact hp

/-- The endpoints are the operations of a document in which no object has two fields of one name. -/
lemma read_sound (kind : SourceKind) (text : List Char) {s : Settings}
    (built : ∀ (doc : Value) (v : Version) (path : String) (item : Fields), doc.Distinct →
      (Value.object item).Distinct → ∀ b ∈ pathOperations doc v path item, E (s.finish b.value)) :
    (read kind text s).Sound E := by
  unfold read
  split
  · exact Reading.failure_sound _
  · next doc v opened =>
    have hd := open?_distinct opened
    dsimp only
    split
    · exact Reading.success_sound (preamble_sound hd kind v s) _
    · next paths listed =>
      have draft : (paths.foldl (Progress.addPath doc v s)
          ⟨preamble kind doc v s, [], []⟩).draft.Sound E := by
        refine List.foldlRecOn (motive := fun q : Progress => q.draft.Sound E) _ _
          (preamble_sound hd kind v s) fun q hq path mem => addPath_sound hq fun f object => ?_
        have part : path.2.Distinct := (asObjectAt hd listed).value path mem
        exact built doc v path.1 f hd (object ▸ part)
      exact fun a ha => Option.some.inj ha ▸ draft

end Soundness

/-- No object in the examples of a description has two fields of one name. -/
theorem read_distinct (kind : SourceKind) (text : List Char) (s : Settings) :
    (read kind text s).Sound Endpoint.Distinct :=
  read_sound kind text fun _ v path _ hd hi b hb =>
    (pathOperations_distinct hd hi v path b hb).finish s

/-! ## The endpoints -/

lemma preamble_keys (kind : SourceKind) (doc : Value) (v : Version) (s : Settings) :
    (preamble kind doc v s).keys = [] := by
  unfold preamble
  refine List.foldlRecOn (motive := fun d : Draft => d.keys = []) _ _ ?_ fun d hd x _ => ?_
  · split <;> rfl
  · exact (d.keys_addSchema _).trans hd

lemma mem_keys_add_iff (p : Progress) (s : Settings) (b : Built Endpoint) (k : EndpointKey) :
    k ∈ (p.add s b).draft.keys ↔ k ∈ p.draft.keys ∨ k = b.value.key := by
  rw [← s.key_finish b.value]
  exact p.draft.mem_keys_addEndpoint_iff _ k

lemma mem_keys_addPath_iff (p : Progress) (v : Version) (s : Settings) (path : String × Value)
    (k : EndpointKey) : k ∈ (p.addPath doc v s path).draft.keys ↔ k ∈ p.draft.keys ∨
      k.path ≠ "" ∧ ∃ item, (k.path, .object item) = path ∧
        ∃ f ∈ item, operationMethod? f.1 = some k.method := by
  obtain ⟨path, item⟩ := path
  unfold Progress.addPath
  dsimp only
  split_ifs with empty
  · obtain rfl : path = "" := by simpa using empty
    refine ⟨Or.inl, fun h => h.elim id ?_⟩
    rintro ⟨visible, item, same, -⟩
    exact absurd (Prod.mk.inj same).1 visible
  · split
    · next fields =>
      refine (foldl_iff (P := fun q : Progress => k ∈ q.draft.keys)
        (fun q b => mem_keys_add_iff q s b k) _ _).trans (or_congr_right ?_)
      have built : (∃ b ∈ pathOperations doc v path fields, b.value.key = k) ↔
          k.path = path ∧ ∃ p ∈ fields, operationMethod? p.1 = some k.method :=
        exists_pathOperations_iff v path fields k
      simp only [eq_comm (a := k), built]
      constructor
      · rintro ⟨rfl, verb⟩
        exact ⟨by simpa using empty, fields, rfl, verb⟩
      · rintro ⟨-, item, same, verb⟩
        obtain ⟨rfl, rfl⟩ : k.path = path ∧ item = fields := by simpa using same
        exact ⟨rfl, verb⟩
    · next other =>
      refine ⟨Or.inl, fun h => h.elim id ?_⟩
      rintro ⟨-, item, same, -⟩
      exact absurd (Prod.mk.inj same).2.symm (other item)

/-- **The endpoints of a description are the operations of its document**, except for those under
an empty path. -/
theorem mem_keys_iff_declares {kind : SourceKind} {text : List Char} {v : Version}
    (opened : open? text = .ok (doc, v)) (s : Settings) {a : Ast}
    (ha : (read kind text s).ast = some a) (k : EndpointKey) :
    k ∈ a.endpoints.map Endpoint.key ↔ Declares doc k := by
  unfold read at ha
  simp only [opened] at ha
  have start := preamble_keys kind doc v s
  cases listed : (doc.get? "paths").bind Value.asObject? with
  | none =>
    rw [listed] at ha
    obtain rfl := Option.some.inj ha
    refine iff_of_false ?_ ?_
    · exact fun h => by simpa [start] using (show k ∈ (preamble kind doc v s).keys from h)
    · rintro ⟨paths, item, field, operation, found, -⟩
      cases listed.symm.trans found
  | some paths =>
    rw [listed] at ha
    obtain rfl := Option.some.inj ha
    refine (foldl_iff (P := fun q : Progress => k ∈ q.draft.keys)
      (fun q path => mem_keys_addPath_iff q v s path k) _ _).trans ?_
    rw [start]
    constructor
    · rintro (h | ⟨path, mem, visible, item, rfl, ⟨field, operation⟩, hf, verb⟩)
      · cases h
      · exact ⟨paths, item, field, operation, listed, mem, visible, hf, verb⟩
    · rintro ⟨paths', item, field, operation, found, mem, visible, hf, verb⟩
      obtain rfl := Option.some.inj (listed.symm.trans found)
      exact Or.inr ⟨_, mem, visible, item, rfl, _, hf, verb⟩

end ApiCanon.OpenApi
