import ApiCanon.Diff.Difference
import ApiCanon.Model.Endpoint

/-!
# Comparing schemas

Two schemas of one name, property by property and text by text.  A schema is narrowed when a
difference other than one of descriptions is breaking: a property or a text is gone, a property
has another type, or one has become, or come in as, required.

## Reach

An endpoint reaches the schemas that it refers to, the schemas that these refer to, and so on.
The search ends because each schema is expanded once.
-/

namespace ApiCanon.Diff

open Difference (breakingIn harmlessIn)

/-- The differences of two properties of one name. -/
def compareProperty (o : DiffOptions) (name : String) (old new : Property) : List Difference :=
  reportIf (old.type != new.type) (breakingIn "property"
      s!"property '{name}' type changed from {old.type.text} to {new.type.text}") ++
    reportIf (!old.required && new.required)
      (breakingIn "property" s!"property '{name}' is now required") ++
    reportIf (old.required && !new.required)
      (harmlessIn "property" s!"property '{name}' is now optional") ++
    reportIf (!o.ignoreDescriptions && old.description != new.description)
      (harmlessIn "property" s!"property '{name}' description changed")

/-- The differences of an old property and what has become of it. -/
def compareOldProperty (o : DiffOptions) (new : SortedMap Property) (name : String)
    (p : Property) : List Difference :=
  match new.get? name with
  | none => [breakingIn "property" s!"property '{name}' removed"]
  | some q => compareProperty o name p q

/-- The difference that a new property makes. -/
def addedProperty (name : String) (p : Property) : Difference :=
  if p.required then breakingIn "property" s!"new required property '{name}' added"
  else harmlessIn "property" s!"optional property '{name}' added"

/-- The differences of two schemas. -/
def compareSchemas (o : DiffOptions) (old new : Schema) : List Difference :=
  reportIf (!o.ignoreDescriptions && old.description != new.description)
      (harmlessIn "description" "description changed") ++
    old.properties.entries.flatMap (fun (k, p) => compareOldProperty o new.properties k p) ++
    (new.properties.entries.filter fun (k, _) => !old.properties.contains k).map
      (fun (k, p) => addedProperty k p) ++
    (old.enumValues.filter fun v => !new.enumValues.contains v).map
      (fun v => breakingIn "enum" s!"enum value '{v}' removed") ++
    (new.enumValues.filter fun v => !old.enumValues.contains v).map
      (fun v => harmlessIn "enum" s!"enum value '{v}' added")

/-- Whether a schema accepts less than before. -/
def isNarrowed (old new : Schema) : Bool :=
  (compareSchemas ⟨true, true⟩ old new).any (·.breaking)

/-- The names of the schemas of both sides that are narrowed, in ascending order. -/
def narrowedSchemas (old new : SortedMap Schema) : List String :=
  old.entries.filterMap fun (name, s) =>
    match new.get? name with
    | some t => if isNarrowed s t then some name else none
    | none => none

/-! ## Reach -/

/-- The names of a list that have not been seen. -/
def unseen (seen : List String) (names : List String) : List String :=
  names.filter fun k => !seen.contains k

theorem length_unseen_cons_le (seen : List String) (n : String) (names : List String) :
    (unseen (n :: seen) names).length ≤ (unseen seen names).length := by
  induction names with
  | nil => simp [unseen]
  | cons k r ih =>
    simp only [unseen, List.filter_cons, List.contains_cons, Bool.not_or] at ih ⊢
    cases h : seen.contains k
    · cases h' : k == n <;>
        simp only [Bool.not_true, Bool.not_false, Bool.true_and, Bool.false_and, if_true,
          Bool.false_eq_true, if_false, List.length_cons] <;> omega
    · simpa only [Bool.not_true, Bool.and_false, Bool.false_eq_true, if_false] using ih

theorem length_unseen_cons_lt {seen names : List String} {n : String}
    (hn : n ∈ names) (hs : seen.contains n = false) :
    (unseen (n :: seen) names).length < (unseen seen names).length := by
  induction names with
  | nil => simp at hn
  | cons k r ih =>
    have le := length_unseen_cons_le seen n r
    simp only [unseen, List.filter_cons, List.contains_cons, Bool.not_or] at ih le ⊢
    rcases List.mem_cons.1 hn with rfl | hr
    · simp only [hs, beq_self_eq_true, Bool.not_true, Bool.false_and, Bool.not_false, if_true,
        Bool.false_eq_true, if_false, List.length_cons]
      omega
    · have := ih hr
      cases h : seen.contains k
      · cases h' : k == n <;>
        simp only [Bool.not_true, Bool.not_false, Bool.true_and, Bool.false_and, if_true,
          Bool.false_eq_true, if_false, List.length_cons] <;> omega
      · simpa only [Bool.not_true, Bool.and_false, Bool.false_eq_true, if_false] using this

theorem mem_keys_of_get? {α : Type} {m : SortedMap α} {k : String} {v : α}
    (h : m.get? k = some v) : k ∈ m.keys := by
  obtain ⟨l, hl⟩ := m
  simp only [SortedMap.get?, SortedMap.keys] at h ⊢
  clear hl
  induction l with
  | nil => simp at h
  | cons p r ih =>
    rw [List.lookup_cons] at h
    split at h
    · next hk =>
      have : k = p.1 := by simpa using hk
      simp [this]
    · exact List.mem_cons_of_mem _ (ih h)

/-- The names seen, and all those that the names on the stack lead to. -/
def reachFrom (schemas : SortedMap Schema) (seen : List String) : List String → List String
  | [] => seen
  | n :: rest =>
    if _hs : seen.contains n then reachFrom schemas seen rest
    else
      match _hg : schemas.get? n with
      | some s => reachFrom schemas (n :: seen) (s.referencedNames ++ rest)
      | none => reachFrom schemas (n :: seen) rest
termination_by stack => ((unseen seen schemas.keys).length, stack.length)
decreasing_by
  · exact Prod.Lex.right _ (by simp)
  · exact Prod.Lex.left _ _
      (length_unseen_cons_lt (mem_keys_of_get? _hg) (by simpa using _hs))
  · rcases Nat.lt_or_eq_of_le (length_unseen_cons_le seen n schemas.keys) with h | h
    · exact Prod.Lex.left _ _ h
    · rw [h]; exact Prod.Lex.right _ (by simp)

/-- The names of the schemas that an endpoint reaches, in ascending order. -/
def reachableSchemas (e : Endpoint) (schemas : SortedMap Schema) : List String :=
  sortedNames (reachFrom schemas [] e.referencedNames)

end ApiCanon.Diff
