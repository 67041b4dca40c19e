import ApiCanon.Pipeline.Enhancement
import ApiCanon.Proofs.Batch.Accounts
import ApiCanon.Proofs.Collection.Gaps
import ApiCanon.Proofs.Time.Moments

/-!
# What is submitted for a description

The cache is asked for the text of one endpoint after another (`Pipeline.recollect`).  The endpoints
for which it has none are submitted, in the order of the description, under the next identifiers
(`Pipeline.plan_eq`).  As no two of these are equal and none is blank, the batch is refused only if
no item may be under way (`Pipeline.make_plan`).
-/

namespace ApiCanon

open Json (Value)

/-! ## Identifiers -/

namespace Allocator

/-- Some things, with the next identifiers. -/
def label {α : Type} (a : Allocator) : List α → List (String × α)
  | [] => []
  | x :: rest => (a.next.1, x) :: a.next.2.label rest

/-- The counter after some identifiers. -/
def skip (a : Allocator) (n : Nat) : Allocator := { a with allocated := a.allocated + n }

lemma identifier_injective {name : String} {m n : Nat}
    (h : identifier name m = identifier name n) : m = n := by
  have chars := congrArg String.toList h
  simp only [identifier, String.toList_append] at chars
  have digits := congrArg (Nat.ofDigitChars 10 · 0) (List.append_cancel_left chars)
  simpa only [Timestamp.ofDigitChars_padded] using digits

lemma isBlankText_identifier (name : String) (n : Nat) :
    Text.isBlankText (identifier name n) = false := by
  simp [Text.isBlankText, Text.allBlank, identifier, Text.isBlank]

variable {α : Type} {a : Allocator} {l : List α}

lemma map_snd_label (a : Allocator) (l : List α) : (a.label l).map Prod.snd = l := by
  induction l generalizing a with
  | nil => rfl
  | cons x rest ih => rw [label, List.map_cons, ih]

lemma exists_of_mem_label {v : String × α} (h : v ∈ a.label l) :
    ∃ n, a.allocated < n ∧ v.1 = identifier a.name n := by
  induction l generalizing a with
  | nil => cases h
  | cons x rest ih =>
    rcases List.mem_cons.1 h with rfl | h
    · exact ⟨a.allocated + 1, Nat.lt_succ_self _, rfl⟩
    · obtain ⟨n, later, same⟩ := ih h
      exact ⟨n, Nat.lt_of_succ_lt later, same⟩

/-- No two identifiers of one counter are equal. -/
lemma nodup_label (a : Allocator) (l : List α) : ((a.label l).map Prod.fst).Nodup := by
  induction l generalizing a with
  | nil => exact List.nodup_nil
  | cons x rest ih =>
    refine List.nodup_cons.2 ⟨fun h => ?_, ih a.next.2⟩
    obtain ⟨v, hv, same⟩ := List.mem_map.1 h
    obtain ⟨n, later, id⟩ := exists_of_mem_label hv
    have number := identifier_injective (id.symm.trans same)
    exact absurd later (by rw [number]; exact Nat.lt_irrefl _)

end Allocator

/-! ## Batches -/

namespace Batch

lemma itemFault?_eq_none {items : List BatchItem} {seen : List String} {index : Nat}
    (named : ∀ i ∈ items, Text.isBlankText i.id = false)
    (distinct : (items.map BatchItem.id).Nodup) (fresh : ∀ i ∈ items, i.id ∉ seen) :
    itemFault? seen index items = none := by
  induction items generalizing seen index with
  | nil => rfl
  | cons i rest ih =>
    obtain ⟨single, distinct⟩ := List.nodup_cons.1 distinct
    have unknown : ¬seen.contains i.id = true := by simpa using fresh i List.mem_cons_self
    rw [itemFault?, named i List.mem_cons_self, if_neg Bool.false_ne_true, if_neg unknown]
    refine ih (fun j hj => named j (List.mem_cons_of_mem i hj)) distinct fun j hj known => ?_
    rcases List.mem_cons.1 known with same | known
    · exact single (same ▸ List.mem_map.2 ⟨j, hj, rfl⟩)
    · exact fresh j (List.mem_cons_of_mem i hj) known

/-- Items with names of their own are refused only if none of them may be under way. -/
lemma exists_make {items : List BatchItem} (named : ∀ i ∈ items, Text.isBlankText i.id = false)
    (distinct : (items.map BatchItem.id).Nodup) (options : BatchOptions) :
    (options.maxConcurrency = 0 ∧ ∃ e, make items options = .error e) ∨
      (options.maxConcurrency ≠ 0 ∧ ∃ b, make items options = .ok b) := by
  unfold make
  rw [itemFault?_eq_none named distinct fun _ _ => List.not_mem_nil]
  split_ifs with none
  · exact Or.inl ⟨none, _, rfl⟩
  · exact Or.inr ⟨none, _, rfl⟩

end Batch

namespace Pipeline

variable {now : Timestamp} {context : Option Value} {p : Pipeline}

/-- What the cache has for some endpoints, asked for one after another. -/
def recollect (now : Timestamp) (context : Option Value) :
    List Endpoint → Cache → List (Option String) × Cache
  | [], c => ([], c)
  | e :: rest, c =>
    let first := c.getDecoded now (CacheKey.enhancement e context) Value.asString?
    let others := recollect now context rest first.2
    (first.1 :: others.1, others.2)

lemma length_recollect (now : Timestamp) (context : Option Value) (es : List Endpoint)
    (c : Cache) : (recollect now context es c).1.length = es.length := by
  induction es generalizing c with
  | nil => rfl
  | cons e rest ih => exact congrArg (· + 1) (ih _)

/-- The item for an endpoint. -/
def itemFor (context : Option Value) (v : String × Endpoint) : BatchItem :=
  ⟨v.1, .enhance, v.2.toJson, context⟩

/-- What is known of an endpoint while its item is under way. -/
def pendingFor (context : Option Value) (v : String × Endpoint) : PendingText :=
  ⟨v.1, v.2.key, CacheKey.enhancement v.2 context⟩

lemma planOne_eq (now : Timestamp) (context : Option Value) (e : Endpoint)
    (soFar : EnhancementPlan) (p : Pipeline) :
    let look := p.cache.getDecoded now (CacheKey.enhancement e context) Value.asString?
    p.planOne now context e soFar =
      match look.1 with
      | some text =>
        ({ soFar with texts := soFar.texts ++ [(e.key, text)], cached := soFar.cached + 1 },
          { p with cache := look.2 })
      | none =>
        ({ soFar with
            items := soFar.items ++ [itemFor context (p.itemIds.next.1, e)]
            pending := soFar.pending ++ [pendingFor context (p.itemIds.next.1, e)] },
          { p with cache := look.2, itemIds := p.itemIds.next.2 }) := by
  unfold planOne
  dsimp only
  generalize p.cache.getDecoded now (CacheKey.enhancement e context) Value.asString? = look
  obtain ⟨hit, cache⟩ := look
  cases hit <;> rfl

/-- **What is submitted**: the endpoints for which the cache has no text, in order. -/
theorem plan_eq (now : Timestamp) (context : Option Value) (es : List Endpoint)
    (soFar : EnhancementPlan) (p : Pipeline) :
    let found := recollect now context es p.cache
    let submitted := p.itemIds.label (lacking es found.1)
    p.plan now context es soFar =
      (⟨soFar.texts ++ (supplied es found.1).map (fun v => (v.1.key, v.2)),
          soFar.cached + found.1.countP Option.isSome,
          soFar.items ++ submitted.map (itemFor context),
          soFar.pending ++ submitted.map (pendingFor context)⟩,
        { p with cache := found.2, itemIds := p.itemIds.skip (lacking es found.1).length }) := by
  induction es generalizing soFar p with
  | nil =>
    intro found submitted
    simp [plan, found, submitted, recollect, supplied, lacking, Allocator.label, Allocator.skip]
  | cons e rest ih =>
    intro found submitted
    rw [plan, planOne_eq]
    cases hit : (p.cache.getDecoded now (CacheKey.enhancement e context) Value.asString?).1 with
    | some text =>
      dsimp only
      rw [ih]
      simp only [found, submitted, recollect, hit, supplied, lacking, List.map_cons,
        List.append_assoc, List.singleton_append, List.countP_cons, Option.isSome_some, if_true,
        Nat.add_assoc, Nat.add_comm 1]
    | none =>
      dsimp only
      rw [ih]
      simp only [found, submitted, recollect, hit, supplied, lacking, List.map_cons,
        List.append_assoc, List.singleton_append, List.countP_cons, Option.isSome_none,
        Bool.false_eq_true, if_false, Nat.add_zero, Allocator.label, List.length_cons]
      refine Prod.ext rfl ?_
      simp only [Allocator.skip, Allocator.next]
      congr 2
      omega

lemma nodup_ids (a : Allocator) (context : Option Value) (es : List Endpoint) :
    (((a.label es).map (itemFor context)).map BatchItem.id).Nodup := by
  rw [List.map_map]
  exact a.nodup_label es

/-- What is planned is refused only if no item may be under way. -/
lemma make_plan (now : Timestamp) (context : Option Value) (es : List Endpoint) (p : Pipeline)
    (options : BatchOptions) :
    let items := (p.plan now context es default).1.items
    (options.maxConcurrency = 0 ∧ ∃ e, Batch.make items options = .error e) ∨
      (options.maxConcurrency ≠ 0 ∧ ∃ b, Batch.make items options = .ok b) := by
  intro items
  have submitted : items = (p.itemIds.label (lacking es (recollect now context es p.cache).1)).map
      (itemFor context) := by
    simp only [items, plan_eq]
    rfl
  rw [submitted]
  refine Batch.exists_make (fun i hi => ?_) (nodup_ids _ _ _) options
  obtain ⟨v, hv, rfl⟩ := List.mem_map.1 hi
  obtain ⟨n, -, same⟩ := Allocator.exists_of_mem_label hv
  have id : (itemFor context v).id = Allocator.identifier p.itemIds.name n := same
  rw [id]
  exact Allocator.isBlankText_identifier _ n

end Pipeline

end ApiCanon
