import ApiCanon.Diff.Result
import ApiCanon.Proofs.Collection.KeyedList
import ApiCanon.Proofs.Collection.SortedMap

/-!
# Descriptions that can be compared

What the check in front of a comparison lets pass: endpoints with paths and distinct keys, and
schemas under their own names (`fault?_eq_none_iff`).  The side only names the culprit.
-/

namespace ApiCanon

/-- The identity rules of a description. -/
structure Ast.Valid (a : Ast) : Prop where
  paths : ∀ e ∈ a.endpoints, Text.isBlankText e.path = false
  keys : (a.endpoints.map Endpoint.key).Nodup
  names : ∀ k s, a.schemas.get? k = some s → s.name = k

namespace Diff

lemma endpointFault?_eq_none_iff (side : Side) (seen : List EndpointKey) (index : Nat)
    (es : List Endpoint) : endpointFault? side seen index es = none ↔
      (∀ e ∈ es, Text.isBlankText e.path = false) ∧ (es.map Endpoint.key).Nodup ∧
        ∀ e ∈ es, e.key ∉ seen := by
  induction es generalizing seen index with
  | nil => simp [endpointFault?]
  | cons e r ih =>
    rw [endpointFault?]
    by_cases blank : Text.isBlankText e.path = true
    · simp [blank]
    by_cases known : e.key ∈ seen
    · simp [blank, known]
    rw [if_neg blank, if_neg (by simpa using known), ih, nodup_fresh_cons_iff,
      List.forall_mem_cons]
    simp only [blank, known, true_and, not_false_eq_true]

lemma schemaFault?_eq_none_iff (side : Side) (entries : List (String × Schema)) :
    schemaFault? side entries = none ↔ ∀ p ∈ entries, p.2.name = p.1 := by
  induction entries with
  | nil => simp [schemaFault?]
  | cons p r ih =>
    obtain ⟨k, s⟩ := p
    by_cases h : k = s.name
    · simp [schemaFault?, h, ih]
    · simp [schemaFault?, h, @eq_comm _ s.name k]

/-- The check lets exactly the descriptions pass that keep the identity rules. -/
theorem fault?_eq_none_iff (side : Side) (a : Ast) : fault? side a = none ↔ a.Valid := by
  have schemas : (∀ p ∈ a.schemas.entries, p.2.name = p.1) ↔
      ∀ k s, a.schemas.get? k = some s → s.name = k := by
    simp only [Prod.forall, SortedMap.get?_eq_some_iff]
  have none_of : fault? side a = none ↔ endpointFault? side [] 0 a.endpoints = none ∧
      schemaFault? side a.schemas.entries = none := by
    simp [fault?]
  rw [none_of, endpointFault?_eq_none_iff, schemaFault?_eq_none_iff, schemas]
  constructor
  · rintro ⟨⟨paths, keys, -⟩, names⟩
    exact ⟨paths, keys, names⟩
  · rintro ⟨paths, keys, names⟩
    exact ⟨⟨paths, keys, by simp⟩, names⟩

/-- Two descriptions that pass the check are compared. -/
lemma diff_of_valid (o : DiffOptions) {old new : Ast} (validOld : old.Valid)
    (validNew : new.Valid) : diff o old new = .ok ⟨changes o old new⟩ := by
  simp [diff, (fault?_eq_none_iff .old old).2 validOld, (fault?_eq_none_iff .new new).2 validNew]

end Diff

end ApiCanon
