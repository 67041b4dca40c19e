import ApiCanon.Diff.Schemas
import ApiCanon.Proofs.Collection.SortedMap
import Mathlib.Logic.Function.Iterate
import Mathlib.Logic.Relation

/-!
# Reach

Which schemas an endpoint reaches, said by chains of references and not by a search.  A chain
starts at the types of the endpoint and goes on by the properties of the schemas that it meets; it
may run in circles and it may end at a name without a schema.  The search finds exactly the names
that end a chain (`mem_reachableSchemas_iff`).

## The walk

The search goes in rounds (`Walk.step`).  What holds between the rounds is `Walk.Sound`; a round
preserves it and uses up one of the rounds that are left (`Walk.bound_step`).  So a walk is over
after a number of rounds that can be told beforehand (`Walk.iterate_step`), whatever circles and
dead ends there are.
-/

namespace ApiCanon

open Relation (ReflTransGen)

/-! ## References -/

/-- A type refers to a schema, through any number of lists. -/
inductive TypeRef.Refers : TypeRef → String → Prop
  | named (n : String) : Refers (.named n) n
  | items {t : TypeRef} {n : String} (h : Refers t n) : Refers (.array t) n

/-- An endpoint refers to a schema by a parameter, by its body or by a response. -/
inductive Endpoint.Refers (e : Endpoint) (n : String) : Prop
  | parameter (p : Parameter) (mem : p ∈ e.parameters) (type : p.schema.Refers n)
  | body (b : RequestBody) (has : e.requestBody = some b) (type : b.schema.Refers n)
  | response (r : Response) (mem : r ∈ e.responses) (t : TypeRef) (has : r.schema = some t)
      (type : t.Refers n)

/-- A schema refers to another one by a property. -/
def Schema.Refers (s : Schema) (n : String) : Prop :=
  ∃ k p, s.properties.get? k = some p ∧ p.type.Refers n

lemma TypeRef.referencedName?_eq_some_iff (t : TypeRef) (n : String) :
    t.referencedName? = some n ↔ t.Refers n := by
  induction t with
  | named m =>
    constructor
    · intro h
      obtain rfl := Option.some.inj h
      exact .named m
    · rintro ⟨⟩
      rfl
  | primitive m => exact iff_of_false nofun nofun
  | array t ih =>
    rw [TypeRef.referencedName?, ih]
    exact ⟨.items, fun | .items h => h⟩

lemma Endpoint.mem_referencedNames_iff (e : Endpoint) (n : String) :
    n ∈ e.referencedNames ↔ e.Refers n := by
  simp only [Endpoint.referencedNames, List.mem_append, List.mem_filterMap, Option.mem_toList,
    Option.bind_eq_some_iff, TypeRef.referencedName?_eq_some_iff]
  constructor
  · rintro ((⟨p, hp, type⟩ | ⟨b, hb, type⟩) | ⟨r, hr, t, ht, type⟩)
    · exact .parameter p hp type
    · exact .body b hb type
    · exact .response r hr t ht type
  · rintro (⟨p, hp, type⟩ | ⟨b, hb, type⟩ | ⟨r, hr, t, ht, type⟩)
    · exact Or.inl (Or.inl ⟨p, hp, type⟩)
    · exact Or.inl (Or.inr ⟨b, hb, type⟩)
    · exact Or.inr ⟨r, hr, t, ht, type⟩

lemma Schema.mem_referencedNames_iff (s : Schema) (n : String) :
    n ∈ s.referencedNames ↔ s.Refers n := by
  simp only [Schema.referencedNames, List.mem_filterMap, SortedMap.mem_values_iff,
    TypeRef.referencedName?_eq_some_iff, Schema.Refers]
  constructor
  · rintro ⟨p, ⟨k, hk⟩, type⟩
    exact ⟨k, p, hk, type⟩
  · rintro ⟨k, p, hk, type⟩
    exact ⟨p, ⟨k, hk⟩, type⟩

namespace Diff

/-- A name leads to another one: it is that of a schema which refers to the other. -/
def LeadsTo (schemas : SortedMap Schema) (n m : String) : Prop :=
  ∃ s, schemas.get? n = some s ∧ s.Refers m

/-- A chain of references goes from an endpoint to a name. -/
def Reaches (schemas : SortedMap Schema) (e : Endpoint) (n : String) : Prop :=
  ∃ first, e.Refers first ∧ ReflTransGen (LeadsTo schemas) first n

/-- The references of the schema of a name; none if there is no such schema. -/
def referencesOf (schemas : SortedMap Schema) (n : String) : List String :=
  ((schemas.get? n).map Schema.referencedNames).getD []

lemma mem_referencesOf_iff (schemas : SortedMap Schema) (n m : String) :
    m ∈ referencesOf schemas n ↔ LeadsTo schemas n m := by
  unfold referencesOf LeadsTo
  cases schemas.get? n <;> simp [Schema.mem_referencedNames_iff]

/-! ## Rounds of the walk -/

/-- A walk under way: the names seen, and the names still to be looked at. -/
structure Walk where
  seen : List String
  pending : List String

namespace Walk

variable {schemas : SortedMap Schema}

/-- The walk of an endpoint before its first round. -/
def start (e : Endpoint) : Walk := ⟨[], e.referencedNames⟩

/-- A round: the next name is passed over if it has been seen, and expanded otherwise. -/
def step (schemas : SortedMap Schema) : Walk → Walk
  | ⟨seen, []⟩ => ⟨seen, []⟩
  | ⟨seen, n :: rest⟩ =>
    if n ∈ seen then ⟨seen, rest⟩ else ⟨n :: seen, referencesOf schemas n ++ rest⟩

/-- The number of the references of all schemas that have not been seen. -/
def unseenReferences (seen : List String) (entries : List (String × Schema)) : Nat :=
  ((entries.filter fun p => p.1 ∉ seen).flatMap fun p => p.2.referencedNames).length

/-- The number of rounds after which a walk is over. -/
def bound (schemas : SortedMap Schema) (w : Walk) : Nat :=
  w.pending.length + unseenReferences w.seen schemas.entries

/-- Expanding a name takes its references away from those of the schemas not seen. -/
lemma unseenReferences_cons {seen : List String} {n : String} (fresh : n ∉ seen)
    {entries : List (String × Schema)} (distinct : (entries.map (·.1)).Nodup) :
    unseenReferences (n :: seen) entries +
        (((entries.lookup n).map Schema.referencedNames).getD []).length =
      unseenReferences seen entries := by
  induction entries with
  | nil => rfl
  | cons p r ih =>
    obtain ⟨k, s⟩ := p
    obtain ⟨single, others⟩ := List.nodup_cons.1 distinct
    have rest := ih others
    by_cases hk : n = k
    · subst hk
      have gone : r.lookup n = none := by
        refine Option.eq_none_iff_forall_ne_some.2 fun t ht => single ?_
        exact List.mem_map.2 ⟨_, (SortedMap.lookup_eq_some_iff others n t).1 ht, rfl⟩
      simp only [gone, Option.map_none, Option.getD_none, List.length_nil] at rest
      simp only [unseenReferences, List.mem_cons, not_or] at rest
      simp only [unseenReferences, List.lookup_cons_self, Option.map_some, Option.getD_some,
        List.filter_cons, List.mem_cons, not_or, fresh, decide_true, if_true, not_true,
        false_and, decide_false, Bool.false_eq_true, if_false, not_false_eq_true,
        List.flatMap_cons, List.length_append]
      omega
    · have other : (n == k) = false := by simpa using hk
      have same : (k ∉ n :: seen) = (k ∉ seen) := by simp [Ne.symm hk]
      simp only [unseenReferences] at rest
      simp only [unseenReferences, List.lookup_cons, other, List.filter_cons, same]
      by_cases hs : k ∈ seen
      · simpa [hs] using rest
      · simp only [hs, not_false_eq_true, decide_true, if_true, List.flatMap_cons,
          List.length_append]
        omega

/-- A round uses up one of the rounds that are left. -/
theorem bound_step (schemas : SortedMap Schema) (seen : List String) (n : String)
    (rest : List String) :
    bound schemas (step schemas ⟨seen, n :: rest⟩) + 1 = bound schemas ⟨seen, n :: rest⟩ := by
  by_cases hn : n ∈ seen
  · simp only [step, hn, if_true, bound, List.length_cons]
    omega
  · have taken := unseenReferences_cons hn schemas.nodup_keys
    simp only [step, hn, if_false, bound, List.length_cons, List.length_append]
    simp only [referencesOf, SortedMap.get?]
    omega

lemma iterate_step_over (schemas : SortedMap Schema) (seen : List String) (k : Nat) :
    (step schemas)^[k] ⟨seen, []⟩ = ⟨seen, []⟩ :=
  Function.iterate_fixed rfl k

/-- **A walk ends**, and with what the search finds. -/
theorem iterate_step (schemas : SortedMap Schema) (seen pending : List String) :
    (step schemas)^[bound schemas ⟨seen, pending⟩] ⟨seen, pending⟩ =
      ⟨reachFrom schemas seen pending, []⟩ := by
  fun_induction reachFrom schemas seen pending with
  | case1 seen => exact iterate_step_over schemas seen _
  | case2 seen n rest known ih =>
    have hn : n ∈ seen := by simpa using known
    have next : step schemas ⟨seen, n :: rest⟩ = ⟨seen, rest⟩ := by simp [step, hn]
    rw [← bound_step, Function.iterate_succ_apply, next, ih]
  | case3 seen n rest fresh s found ih =>
    have hn : n ∉ seen := by simpa using fresh
    have next : step schemas ⟨seen, n :: rest⟩ = ⟨n :: seen, s.referencedNames ++ rest⟩ := by
      simp [step, hn, referencesOf, found]
    rw [← bound_step, Function.iterate_succ_apply, next, ih]
  | case4 seen n rest fresh gone ih =>
    have hn : n ∉ seen := by simpa using fresh
    have next : step schemas ⟨seen, n :: rest⟩ = ⟨n :: seen, rest⟩ := by
      simp [step, hn, referencesOf, gone]
    rw [← bound_step, Function.iterate_succ_apply, next, ih]

/-! ## What a walk has found -/

/-- What holds between the rounds of a walk from some names. -/
structure Sound (schemas : SortedMap Schema) (roots : List String) (w : Walk) : Prop where
  /-- No name is seen twice. -/
  once : w.seen.Nodup
  rooted : ∀ n ∈ roots, n ∈ w.seen ∨ n ∈ w.pending
  /-- Whatever a seen name leads to is known. -/
  closed : ∀ n ∈ w.seen, ∀ m, LeadsTo schemas n m → m ∈ w.seen ∨ m ∈ w.pending
  /-- Whatever is known ends a chain. -/
  led : ∀ n, n ∈ w.seen ∨ n ∈ w.pending →
    ∃ first ∈ roots, ReflTransGen (LeadsTo schemas) first n

variable {roots : List String}

lemma sound_start (schemas : SortedMap Schema) (roots : List String) :
    Sound schemas roots ⟨[], roots⟩ where
  once := List.nodup_nil
  rooted := fun _ hn => Or.inr hn
  closed := nofun
  led := by
    rintro n (hn | hn)
    · cases hn
    · exact ⟨n, hn, .refl⟩

/-- A name that has been seen can be dropped. -/
lemma Sound.drop {seen rest : List String} {n : String}
    (h : Sound schemas roots ⟨seen, n :: rest⟩) (hn : n ∈ seen) :
    Sound schemas roots ⟨seen, rest⟩ := by
  have kept : ∀ m, m ∈ seen ∨ m ∈ n :: rest → m ∈ seen ∨ m ∈ rest := by
    rintro m (hm | hm)
    · exact Or.inl hm
    · rcases List.mem_cons.1 hm with rfl | hm
      · exact Or.inl hn
      · exact Or.inr hm
  exact ⟨h.once, fun m hm => kept m (h.rooted m hm),
    fun m hm m' lead => kept m' (h.closed m hm m' lead),
    fun m hm => h.led m (hm.imp_right (List.mem_cons_of_mem n))⟩

/-- A name that has not been seen is expanded into all that it leads to. -/
lemma Sound.expand {seen rest : List String} {n : String}
    (h : Sound schemas roots ⟨seen, n :: rest⟩) (hn : n ∉ seen) :
    Sound schemas roots ⟨n :: seen, referencesOf schemas n ++ rest⟩ := by
  have kept : ∀ m, m ∈ seen ∨ m ∈ n :: rest →
      m ∈ n :: seen ∨ m ∈ referencesOf schemas n ++ rest := by
    rintro m (hm | hm)
    · exact Or.inl (List.mem_cons_of_mem n hm)
    · rcases List.mem_cons.1 hm with rfl | hm
      · exact Or.inl List.mem_cons_self
      · exact Or.inr (List.mem_append_right _ hm)
  refine ⟨List.nodup_cons.2 ⟨hn, h.once⟩, fun m hm => kept m (h.rooted m hm),
    fun m hm m' lead => ?_, fun m hm => ?_⟩
  · rcases List.mem_cons.1 hm with rfl | hm
    · exact Or.inr (List.mem_append_left _ ((mem_referencesOf_iff schemas m m').2 lead))
    · exact kept m' (h.closed m hm m' lead)
  · rcases hm with hm | hm
    · rcases List.mem_cons.1 hm with rfl | hm
      · exact h.led m (Or.inr List.mem_cons_self)
      · exact h.led m (Or.inl hm)
    · rcases List.mem_append.1 hm with hm | hm
      · -- the chain to the name that is expanded goes on to what it leads to
        obtain ⟨first, root, chain⟩ := h.led n (Or.inr List.mem_cons_self)
        exact ⟨first, root, chain.tail ((mem_referencesOf_iff schemas n m).1 hm)⟩
      · exact h.led m (Or.inr (List.mem_cons_of_mem n hm))

lemma Sound.step {w : Walk} (h : Sound schemas roots w) :
    Sound schemas roots (step schemas w) := by
  obtain ⟨seen, _ | ⟨n, rest⟩⟩ := w
  · exact h
  · by_cases hn : n ∈ seen
    · simpa [Walk.step, hn] using h.drop hn
    · simpa [Walk.step, hn] using h.expand hn

lemma Sound.iterate {w : Walk} (h : Sound schemas roots w) (k : Nat) :
    Sound schemas roots ((Walk.step schemas)^[k] w) := by
  induction k generalizing w with
  | zero => exact h
  | succ k ih => exact ih h.step

/-- A walk that is over has seen exactly the ends of chains. -/
lemma Sound.mem_iff {seen : List String} (h : Sound schemas roots ⟨seen, []⟩) (n : String) :
    n ∈ seen ↔ ∃ first ∈ roots, ReflTransGen (LeadsTo schemas) first n := by
  have known : ∀ m, m ∈ seen ∨ m ∈ [] → m ∈ seen := fun m hm => hm.resolve_right List.not_mem_nil
  refine ⟨fun hn => h.led n (Or.inl hn), ?_⟩
  rintro ⟨first, root, chain⟩
  induction chain with
  | refl => exact known first (h.rooted first root)
  | tail _ lead ih => exact known _ (h.closed _ ih _ lead)

end Walk

/-! ## The schemas that an endpoint reaches -/

/-- The search keeps to the rounds of a walk. -/
lemma reachFrom_sound (schemas : SortedMap Schema) (roots : List String) :
    Walk.Sound schemas roots ⟨reachFrom schemas [] roots, []⟩ :=
  Walk.iterate_step schemas [] roots ▸ (Walk.sound_start schemas roots).iterate _

/-- **The search finds exactly what chains of references end at.** -/
theorem mem_reachableSchemas_iff (e : Endpoint) (schemas : SortedMap Schema) (n : String) :
    n ∈ reachableSchemas e schemas ↔ Reaches schemas e n := by
  rw [reachableSchemas, mem_sortedNames, (reachFrom_sound schemas _).mem_iff]
  simp only [Endpoint.mem_referencedNames_iff, Reaches]

end Diff

end ApiCanon
