import ApiCanon.Proofs.Diff.Validity

/-!
# Rejected comparisons

A comparison is rejected exactly if one of the two descriptions is malformed: an endpoint has a
blank path, two endpoints have one key, or a schema is stored under another name (`Ast.Malformed`).
The error is the first fault of the old description if there is one, and else that of the new one
(`diff_eq_error_iff_firstFault`).

The first fault of a description is told without the scan that finds it (`FirstFault`).  Endpoints
come before schemas.  The first endpoint that is at fault has only valid ones in front of it, and a
blank path counts before a repeated key.  Of the schemas under another name the one with the least
key counts.
-/

namespace ApiCanon

open Text (isBlankText)

/-! ## Malformed descriptions -/

/-- A description breaks one of the identity rules. -/
inductive Ast.Malformed (a : Ast) : Prop
  | blank (e : Endpoint) (mem : e ∈ a.endpoints) (blank : isBlankText e.path = true)
  | repeated (i j : Nat) (e f : Endpoint) (lt : i < j) (first : a.endpoints[i]? = some e)
      (second : a.endpoints[j]? = some f) (same : e.key = f.key)
  | misnamed (k : String) (s : Schema) (stored : a.schemas.get? k = some s) (other : s.name ≠ k)

lemma Ast.malformed_iff (a : Ast) : a.Malformed ↔ ¬a.Valid := by
  constructor
  · rintro (⟨e, mem, blank⟩ | ⟨i, j, e, f, lt, first, second, same⟩ | ⟨k, s, stored, other⟩) valid
    · exact Bool.false_ne_true ((valid.paths e mem).symm.trans blank)
    · have shorter : j < (a.endpoints.map Endpoint.key).length := by
        rw [List.length_map]
        exact (List.getElem?_eq_some_iff.1 second).1
      refine List.nodup_iff_getElem?_ne_getElem?.1 valid.keys i j lt shorter ?_
      rw [List.getElem?_map, List.getElem?_map, first, second, Option.map_some, Option.map_some,
        same]
    · exact other (valid.names k s stored)
  · intro invalid
    by_contra sound
    refine invalid ⟨fun e mem => ?_, ?_, fun k s stored => ?_⟩
    · exact Bool.eq_false_iff.2 fun blank => sound (.blank e mem blank)
    · refine List.nodup_iff_getElem?_ne_getElem?.2 fun i j lt shorter same => ?_
      rw [List.length_map] at shorter
      have first := List.getElem?_eq_getElem (lt.trans shorter)
      have second := List.getElem?_eq_getElem shorter
      rw [List.getElem?_map, List.getElem?_map, first, second] at same
      exact sound (.repeated i j _ _ lt first second (Option.some.inj same))
    · by_contra other
      exact sound (.misnamed k s stored other)

namespace Diff

/-! ## The first fault -/

/-- Endpoints with paths that are not blank, and with distinct keys. -/
structure EndpointsValid (es : List Endpoint) : Prop where
  paths : ∀ e ∈ es, isBlankText e.path = false
  keys : (es.map Endpoint.key).Nodup

/-- What is wrong with an endpoint that comes behind others. -/
inductive EndpointFault (side : Side) (before : List Endpoint) (e : Endpoint) : DiffError → Prop
  | blank (blank : isBlankText e.path = true) :
      EndpointFault side before e (.emptyPath side before.length e.method)
  | repeated (visible : isBlankText e.path = false) (known : e.key ∈ before.map Endpoint.key) :
      EndpointFault side before e (.duplicateEndpoint side e.locator)

/-- What is wrong with a description first. -/
inductive FirstFault (side : Side) (a : Ast) : DiffError → Prop
  | endpoint (before : List Endpoint) (e : Endpoint) (after : List Endpoint) (err : DiffError)
      (split : a.endpoints = before ++ e :: after) (valid : EndpointsValid before)
      (fault : EndpointFault side before e err) : FirstFault side a err
  | schema (k : String) (s : Schema) (valid : EndpointsValid a.endpoints)
      (stored : a.schemas.get? k = some s) (other : s.name ≠ k)
      (first : ∀ l t, a.schemas.get? l = some t → l < k → t.name = l) :
      FirstFault side a (.schemaNameMismatch side k s.name)

variable {side : Side} {a : Ast} {e : Endpoint} {es before done : List Endpoint} {err : DiffError}

/-- The text of an error begins with the side of the description that is at fault. -/
lemma FirstFault.message_eq (h : FirstFault side a err) :
    ∃ fault, err.message = side.text ++ fault := by
  cases h with
  | endpoint before e after err split valid fault =>
    cases fault <;>
    · simp only [DiffError.message, toString, String.append_assoc]
      exact ⟨_, rfl⟩
  | schema k s =>
    simp only [DiffError.message, toString, String.append_assoc]
    exact ⟨_, rfl⟩

/-! ## Endpoints -/

lemma EndpointsValid.nil : EndpointsValid [] where
  paths := fun _ he => absurd he List.not_mem_nil
  keys := List.nodup_nil

/-- One more endpoint at the end is valid unless it is at fault. -/
lemma EndpointsValid.concat_iff (h : EndpointsValid before) : EndpointsValid (before ++ [e]) ↔
    isBlankText e.path = false ∧ e.key ∉ before.map Endpoint.key := by
  constructor
  · intro valid
    have keys := valid.keys
    rw [List.map_append, List.map_singleton, List.nodup_append] at keys
    refine ⟨valid.paths e (by simp), fun known => ?_⟩
    exact keys.2.2 _ known _ (List.mem_singleton.2 rfl) rfl
  · rintro ⟨visible, fresh⟩
    constructor
    · intro f hf
      rcases List.mem_append.1 hf with hf | hf
      · exact h.paths f hf
      · exact List.mem_singleton.1 hf ▸ visible
    · rw [List.map_append, List.map_singleton, List.nodup_append]
      refine ⟨h.keys, List.nodup_singleton _, ?_⟩
      rintro k hk _ hl rfl
      exact fresh (List.mem_singleton.1 hl ▸ hk)

lemma EndpointsValid.of_append (h : EndpointsValid (done ++ es)) : EndpointsValid done where
  paths := fun e he => h.paths e (List.mem_append_left _ he)
  keys := by
    have keys := h.keys
    rw [List.map_append] at keys
    exact keys.of_append_left

/-- A blank path counts before a repeated key. -/
lemma endpointFault_iff : EndpointFault side before e err ↔
    (if isBlankText e.path = true then some (.emptyPath side before.length e.method)
      else if e.key ∈ before.map Endpoint.key then some (.duplicateEndpoint side e.locator)
      else none) = some err := by
  constructor
  · rintro (⟨blank⟩ | ⟨visible, known⟩)
    · rw [if_pos blank]
    · rw [if_neg (by rw [visible]; exact Bool.false_ne_true), if_pos known]
  · intro fault
    split_ifs at fault with blank known
    · obtain rfl := Option.some.inj fault
      exact .blank blank
    · obtain rfl := Option.some.inj fault
      exact .repeated (Bool.eq_false_iff.2 blank) known

/-- Behind other endpoints, the first one that is at fault. -/
def FaultBehind (side : Side) (done es : List Endpoint) (err : DiffError) : Prop :=
  ∃ before e after, es = before ++ e :: after ∧ EndpointsValid (done ++ before) ∧
    EndpointFault side (done ++ before) e err

lemma not_faultBehind_nil : ¬FaultBehind side done [] err := by
  rintro ⟨before, e, after, split, -⟩
  exact List.append_ne_nil_of_right_ne_nil _ (List.cons_ne_nil _ _) split.symm

lemma FaultBehind.valid (h : FaultBehind side done es err) : EndpointsValid done := by
  obtain ⟨before, e, after, -, valid, -⟩ := h
  exact valid.of_append

lemma faultBehind_cons_iff (valid : EndpointsValid done) : FaultBehind side done (e :: es) err ↔
    EndpointFault side done e err ∨ FaultBehind side (done ++ [e]) es err := by
  constructor
  · rintro ⟨_ | ⟨f, before⟩, g, after, split, sound, fault⟩
    · obtain ⟨rfl, rfl⟩ := List.cons.inj split
      rw [List.append_nil] at fault
      exact .inl fault
    · obtain ⟨rfl, rfl⟩ := List.cons.inj split
      rw [List.append_cons] at sound fault
      exact .inr ⟨before, g, after, rfl, sound, fault⟩
  · rintro (fault | ⟨before, g, after, rfl, sound, fault⟩)
    · exact ⟨[], e, es, rfl, by rwa [List.append_nil], by rwa [List.append_nil]⟩
    · rw [← List.append_cons] at sound fault
      exact ⟨e :: before, g, after, rfl, sound, fault⟩

/-- The scan finds the first endpoint at fault.  It has gone through the endpoints `done`, which are
valid, and remembers their keys and their number. -/
lemma endpointFault?_eq_some_iff (valid : EndpointsValid done) :
    endpointFault? side (done.map Endpoint.key).reverse done.length es = some err ↔
      FaultBehind side done es err := by
  induction es generalizing done with
  | nil => exact iff_of_false nofun not_faultBehind_nil
  | cons e es ih =>
    have known : (done.map Endpoint.key).reverse.contains e.key = true ↔
        e.key ∈ done.map Endpoint.key := by
      rw [List.contains_iff_mem, List.mem_reverse]
    have keys : e.key :: (done.map Endpoint.key).reverse =
        ((done ++ [e]).map Endpoint.key).reverse := by simp
    have number : done.length + 1 = (done ++ [e]).length := by simp
    rw [faultBehind_cons_iff valid, endpointFault_iff, endpointFault?]
    simp only [known]
    by_cases next : EndpointsValid (done ++ [e])
    · obtain ⟨visible, fresh⟩ := valid.concat_iff.1 next
      simp only [visible, fresh, keys, number, ih next, if_false, reduceCtorEq, false_or]
    · rw [or_iff_left fun behind => next behind.valid]
      split_ifs with blank repeated
      · rfl
      · rfl
      · exact absurd (valid.concat_iff.2 ⟨Bool.eq_false_iff.2 blank, repeated⟩) next

/-! ## Schemas -/

/-- The scan finds the schema under another name with the least key. -/
lemma schemaFault?_eq_some_iff {entries : List (String × Schema)} (ascending : Ascending entries) :
    schemaFault? side entries = some err ↔ ∃ k s, (k, s) ∈ entries ∧ s.name ≠ k ∧
      (∀ p ∈ entries, p.1 < k → p.2.name = p.1) ∧ err = .schemaNameMismatch side k s.name := by
  induction entries with
  | nil => simp [schemaFault?]
  | cons p entries ih =>
    obtain ⟨l, t⟩ := p
    obtain ⟨above, ascending⟩ := List.pairwise_cons.1 ascending
    rw [schemaFault?]
    split_ifs with named
    · rw [ih ascending]
      constructor
      · rintro ⟨k, s, mem, other, first, rfl⟩
        refine ⟨k, s, List.mem_cons_of_mem _ mem, other, fun p hp lt => ?_, rfl⟩
        rcases List.mem_cons.1 hp with rfl | hp
        · exact named.symm
        · exact first p hp lt
      · rintro ⟨k, s, mem, other, first, rfl⟩
        rcases List.mem_cons.1 mem with same | mem
        · obtain ⟨rfl, rfl⟩ := Prod.mk.inj same
          exact absurd named.symm other
        · exact ⟨k, s, mem, other, fun p hp => first p (List.mem_cons_of_mem _ hp), rfl⟩
    · rw [Option.some.injEq]
      constructor
      · rintro rfl
        refine ⟨l, t, List.mem_cons_self, Ne.symm named, fun p hp lt => ?_, rfl⟩
        rcases List.mem_cons.1 hp with rfl | hp
        · exact absurd lt (String.lt_irrefl l)
        · exact absurd (above p hp) (String.lt_asymm lt)
      · rintro ⟨k, s, mem, other, first, rfl⟩
        rcases List.mem_cons.1 mem with same | mem
        · obtain ⟨rfl, rfl⟩ := Prod.mk.inj same
          rfl
        · exact absurd (first _ List.mem_cons_self (above _ mem)).symm named

/-! ## Descriptions -/

/-- The check finds the first fault. -/
theorem fault?_eq_some_iff : fault? side a = some err ↔ FirstFault side a err := by
  have scan : endpointFault? side [] 0 a.endpoints = some err ↔
      FaultBehind side [] a.endpoints err :=
    endpointFault?_eq_some_iff EndpointsValid.nil
  have clean := endpointFault?_eq_none_iff side [] 0 a.endpoints
  have schemas : schemaFault? side a.schemas.entries = some err ↔ _ :=
    schemaFault?_eq_some_iff a.schemas.ascending
  rw [fault?, Option.orElse_eq_some, scan, clean, schemas]
  simp only [← SortedMap.get?_eq_some_iff, Prod.forall]
  constructor
  · rintro (⟨before, e, after, split, valid, fault⟩ |
      ⟨⟨paths, keys, -⟩, k, s, stored, other, first, rfl⟩)
    · exact .endpoint before e after err split valid fault
    · exact .schema k s ⟨paths, keys⟩ stored other first
  · rintro (⟨before, e, after, _, split, valid, fault⟩ | ⟨k, s, valid, stored, other, first⟩)
    · exact .inl ⟨before, e, after, split, valid, fault⟩
    · exact .inr ⟨⟨valid.paths, valid.keys, by simp⟩, k, s, stored, other, first, rfl⟩

/-- A description is malformed if something is wrong with it first. -/
lemma exists_firstFault_iff (side : Side) (a : Ast) :
    (∃ err, FirstFault side a err) ↔ a.Malformed := by
  simp only [← fault?_eq_some_iff]
  rw [← Option.ne_none_iff_exists', Ne, fault?_eq_none_iff, Ast.malformed_iff]

lemma diff_eq_error_iff (o : DiffOptions) (old new : Ast) : diff o old new = .error err ↔
    FirstFault .old old err ∨ (¬old.Malformed ∧ FirstFault .new new err) := by
  have failed : diff o old new = .error err ↔ (fault? .old old <|> fault? .new new) = some err := by
    unfold diff
    cases (fault? .old old <|> fault? .new new) with
    | none => exact iff_of_false nofun nofun
    | some e => simp
  rw [failed, Option.orElse_eq_some, fault?_eq_some_iff, fault?_eq_some_iff, fault?_eq_none_iff,
    Ast.malformed_iff, not_not]

/-- **What a comparison rejects.**  Whatever the options, two descriptions cannot be compared
exactly if one of them is malformed.  The error is the first fault of the old description, or if the
old one is not malformed, the first fault of the new one, and its text begins with the name of that
side. -/
theorem diff_eq_error_iff_firstFault (o : DiffOptions) (old new : Ast) :
    ((∃ err, diff o old new = .error err) ↔ old.Malformed ∨ new.Malformed) ∧
      (∀ err, diff o old new = .error err ↔
        FirstFault .old old err ∨ (¬old.Malformed ∧ FirstFault .new new err)) ∧
      ∀ err, diff o old new = .error err → ∃ side fault, (side = .old ↔ old.Malformed) ∧
        err.message = Side.text side ++ fault := by
  refine ⟨?_, fun err => diff_eq_error_iff o old new, fun err failed => ?_⟩
  · simp only [diff_eq_error_iff, exists_or, exists_and_left, exists_firstFault_iff]
    tauto
  · rcases (diff_eq_error_iff o old new).1 failed with fault | ⟨sound, fault⟩
    · obtain ⟨text, message⟩ := fault.message_eq
      exact ⟨.old, text, iff_of_true rfl ((exists_firstFault_iff .old old).1 ⟨err, fault⟩), message⟩
    · obtain ⟨text, message⟩ := fault.message_eq
      exact ⟨.new, text, iff_of_false nofun sound, message⟩

/-- A description of the endpoints at some paths, and of a schema under another name. -/
def misnamedWith (paths : List String) : Ast :=
  { (Draft.start "openapi").ast with
    endpoints := paths.map (Endpoint.plain .get)
    schemas := SortedMap.empty.insert "Pet" (.named "Dog") }

/-- Of a repeated key, a blank path and a schema under another name the key comes first. -/
theorem diff_eq_error_iff_firstFault_repeated :
    let old := (Draft.start "openapi").ast
    let err := DiffError.duplicateEndpoint .new "GET /a"
    diff .default old (misnamedWith ["/a", "/a", " "]) = .error err ∧
      ∃ side fault, (side = .old ↔ old.Malformed) ∧
        err.message = Side.text side ++ fault := by
  intro old err
  obtain ⟨-, rejects, text⟩ := diff_eq_error_iff_firstFault .default old
    (misnamedWith ["/a", "/a", " "])
  have sound : ¬old.Malformed := by
    rw [Ast.malformed_iff, not_not]
    exact ⟨EndpointsValid.nil.paths, List.nodup_nil, fun _ _ stored => nomatch stored⟩
  have first : EndpointsValid [Endpoint.plain .get "/a"] := by
    refine ⟨fun e he => ?_, List.nodup_singleton _⟩
    obtain rfl := List.mem_singleton.1 he
    decide
  have fault : FirstFault .new (misnamedWith ["/a", "/a", " "]) err :=
    .endpoint [.plain .get "/a"] (.plain .get "/a") [.plain .get " "] _ rfl first
      (.repeated (by decide) (List.mem_singleton.2 rfl))
  have failed := (rejects err).2 (.inr ⟨sound, fault⟩)
  exact ⟨failed, text err failed⟩

end Diff

end ApiCanon
