import ApiCanon.Diff.Difference
import Mathlib.Tactic.Lemma

/-!
# Lists of differences

A comparison is a concatenation of conditional reports.  Two things are asked of it: whether it
reports anything, and whether it reports anything breaking.  Both distribute over the way a
comparison is put together.
-/

namespace ApiCanon.Diff

open Difference (breakingIn harmlessIn)

/-- Some difference of a list is breaking. -/
def HasBreaking (ds : List Difference) : Prop := ∃ d ∈ ds, d.breaking = true

lemma not_hasBreaking_iff (ds : List Difference) :
    ¬HasBreaking ds ↔ ∀ d ∈ ds, d.breaking = false := by
  simp [HasBreaking]

@[simp] lemma breaking_breakingIn (field message : String) :
    (breakingIn field message).breaking = true := rfl

@[simp] lemma breaking_harmlessIn (field message : String) :
    (harmlessIn field message).breaking = false := rfl

@[simp] lemma hasBreaking_nil : ¬HasBreaking [] := by
  simp [HasBreaking]

lemma HasBreaking.ne_nil {ds : List Difference} (h : HasBreaking ds) : ds ≠ [] := by
  rintro rfl
  exact hasBreaking_nil h

@[simp] lemma hasBreaking_singleton (d : Difference) : HasBreaking [d] ↔ d.breaking = true := by
  simp [HasBreaking]

@[simp] lemma hasBreaking_append (ds es : List Difference) :
    HasBreaking (ds ++ es) ↔ HasBreaking ds ∨ HasBreaking es := by
  simp only [HasBreaking, List.mem_append, or_and_right, exists_or]

@[simp] lemma hasBreaking_reportIf (c : Bool) (d : Difference) :
    HasBreaking (reportIf c d) ↔ c = true ∧ d.breaking = true := by
  cases c <;> simp [reportIf]

lemma hasBreaking_flatMap {α : Type} (l : List α) (f : α → List Difference) :
    HasBreaking (l.flatMap f) ↔ ∃ a ∈ l, HasBreaking (f a) := by
  simp only [HasBreaking, List.mem_flatMap]
  constructor
  · rintro ⟨d, ⟨a, ha, hd⟩, hb⟩
    exact ⟨a, ha, d, hd, hb⟩
  · rintro ⟨a, ha, d, hd, hb⟩
    exact ⟨d, ⟨a, ha, hd⟩, hb⟩

lemma hasBreaking_map {α : Type} (l : List α) (f : α → Difference) :
    HasBreaking (l.map f) ↔ ∃ a ∈ l, (f a).breaking = true := by
  simp only [HasBreaking, List.mem_map]
  constructor
  · rintro ⟨_, ⟨a, ha, rfl⟩, hb⟩
    exact ⟨a, ha, hb⟩
  · rintro ⟨a, ha, hb⟩
    exact ⟨f a, ⟨a, ha, rfl⟩, hb⟩

@[simp] lemma reportIf_eq_nil_iff (c : Bool) (d : Difference) : reportIf c d = [] ↔ c = false := by
  cases c <;> simp [reportIf]

end ApiCanon.Diff
