import ApiCanon.Diff.Result
import Mathlib.Data.List.Forall2
import Mathlib.Tactic.Lemma

/-!
# Texts that are written for endpoints

An enhancement writes texts for endpoints and changes nothing else about a description
(`Ast.textsOnly_withEnhancements`), and comparisons do not see these texts
(`enhancement_invisible`): a description with them is checked, matched, compared and followed along
its references as it would be without them.

The comparison is traced back to the descriptions as their sources give them (`Ast.asGiven`), which
are the same with and without the texts.  All that a comparison takes from a single endpoint is in
`Endpoint.asGiven`, and so the two agree by definition there; the rest is a matter of lists of
endpoints, which are searched by key and gone through in order.
-/

namespace ApiCanon

/-- The endpoint without a text written for it. -/
def Endpoint.asGiven (e : Endpoint) : Endpoint := { e with enhancedDescription := none }

/-- The description as its source gives it, without texts written for its endpoints. -/
def Ast.asGiven (a : Ast) : Ast := { a with endpoints := a.endpoints.map Endpoint.asGiven }

@[simp] lemma Endpoint.key_asGiven (e : Endpoint) : e.asGiven.key = e.key := rfl

/-! ## What an enhancement changes -/

/-- An endpoint gets the text that stands last for its key, if there is one, and is the same
otherwise. -/
inductive Endpoint.Gets (texts : List (EndpointKey × String)) (e : Endpoint) : Endpoint → Prop
  | text {before after : List (EndpointKey × String)} {t : String}
      (given : texts = before ++ (e.key, t) :: after) (last : e.key ∉ after.map Prod.fst) :
      Gets texts e { e with enhancedDescription := some t }
  | nothing (missing : e.key ∉ texts.map Prod.fst) : Gets texts e e

namespace Ast

/-- A description differs from another one in nothing but the texts that are given for its
endpoints. -/
structure TextsOnly (texts : List (EndpointKey × String)) (a a' : Ast) : Prop where
  /-- The endpoints stand in the same order. -/
  endpoints : List.Forall₂ (Endpoint.Gets texts) a.endpoints a'.endpoints
  schemas : a'.schemas = a.schemas
  metadata : a'.metadata = a.metadata
  unresolved : a'.unresolved = a.unresolved
  references : a'.referencedNames = a.referencedNames

variable {texts : List (EndpointKey × String)} {k : EndpointKey}

lemma enhancement?_eq_none_iff : enhancement? texts k = none ↔ k ∉ texts.map Prod.fst := by
  rw [enhancement?, Option.map_eq_none_iff, List.find?_eq_none]
  constructor
  · intro none mem
    obtain ⟨p, hp, rfl⟩ := List.mem_map.1 mem
    exact none p (List.mem_reverse.2 hp) (beq_self_eq_true _)
  · intro missing p hp same
    exact missing (List.mem_map.2 ⟨p, List.mem_reverse.1 hp, beq_iff_eq.1 same⟩)

/-- The text that is found stands last. -/
lemma enhancement?_eq_some {t : String} (h : enhancement? texts k = some t) :
    ∃ before after, texts = before ++ (k, t) :: after ∧ k ∉ after.map Prod.fst := by
  obtain ⟨⟨l, u⟩, found, rfl⟩ := Option.map_eq_some_iff.1 h
  obtain ⟨same, after, before, split, others⟩ := List.find?_eq_some_iff_append.1 found
  obtain rfl : l = k := beq_iff_eq.1 same
  refine ⟨before.reverse, after.reverse, ?_, fun mem => ?_⟩
  · rw [← List.reverse_reverse texts, split]
    simp
  · obtain ⟨p, hp, here⟩ := List.mem_map.1 mem
    have other := others p (List.mem_reverse.1 hp)
    rw [here, beq_self_eq_true] at other
    cases other

/-- An enhancement changes no references. -/
lemma references_withEnhancements (a : Ast) (texts : List (EndpointKey × String)) :
    (a.withEnhancements texts).references = a.references := by
  unfold references withEnhancements
  rw [List.flatMap_map]
  congr 1
  refine List.flatMap_congr fun e _ => ?_
  split <;> rfl

/-- An enhancement writes texts and changes nothing else. -/
theorem textsOnly_withEnhancements (a : Ast) (texts : List (EndpointKey × String)) :
    a.TextsOnly texts (a.withEnhancements texts) where
  endpoints := by
    refine List.forall₂_map_right_iff.2 (List.forall₂_same.2 fun e _ => ?_)
    split
    · next t found =>
      obtain ⟨before, after, given, last⟩ := enhancement?_eq_some found
      exact .text given last
    · next none => exact .nothing (enhancement?_eq_none_iff.1 none)
  schemas := rfl
  metadata := rfl
  unresolved := rfl
  references := congrArg sortedNames (references_withEnhancements a texts)

/-- So the description is given as before. -/
lemma asGiven_withEnhancements (a : Ast) (texts : List (EndpointKey × String)) :
    (a.withEnhancements texts).asGiven = a.asGiven := by
  unfold asGiven withEnhancements
  rw [List.map_map]
  congr 1
  refine List.map_congr_left fun e _ => ?_
  rw [Function.comp_apply]
  split <;> rfl

end Ast

namespace Diff

/-! ## What a comparison does not see -/

lemma endpointFault?_asGiven (side : Side) (seen : List EndpointKey) (index : Nat)
    (es : List Endpoint) :
    endpointFault? side seen index (es.map Endpoint.asGiven) =
      endpointFault? side seen index es := by
  induction es generalizing seen index with
  | nil => rfl
  | cons e r ih =>
    rw [List.map_cons, endpointFault?, endpointFault?, ih]
    rfl

lemma fault?_asGiven (side : Side) (a : Ast) : fault? side a.asGiven = fault? side a := by
  rw [fault?, fault?, Ast.asGiven, endpointFault?_asGiven]

/-- Endpoints are found by key, with and without texts. -/
lemma find?_asGiven (es : List Endpoint) (k : EndpointKey) :
    (es.map Endpoint.asGiven).find? (fun p => p.key == k) =
      (es.find? fun p => p.key == k).map Endpoint.asGiven := by
  rw [List.find?_map]
  rfl

/-- The differences of two endpoints are the same with and without texts. -/
lemma endpointDifferences_asGiven (o : DiffOptions) (schemas : SortedMap Schema)
    (narrowed : List String) (old new : Endpoint) :
    endpointDifferences o schemas narrowed old.asGiven new.asGiven =
      endpointDifferences o schemas narrowed old new := rfl

lemma endpointChange?_asGiven (o : DiffOptions) (old : Ast) (narrowed : List String)
    (e : Endpoint) :
    endpointChange? o old.asGiven narrowed e.asGiven = endpointChange? o old narrowed e := by
  unfold endpointChange?
  rw [Ast.asGiven, find?_asGiven, Endpoint.key_asGiven]
  cases old.endpoints.find? fun p => p.key == e.key with
  | none => rfl
  | some p =>
    rw [Option.map_some]
    dsimp only
    rw [endpointDifferences_asGiven]
    rfl

lemma removal?_asGiven (new : Ast) (e : Endpoint) :
    removal? new.asGiven e.asGiven = removal? new e := by
  unfold removal?
  rw [Ast.asGiven, List.any_map]
  rfl

lemma changes_asGiven (o : DiffOptions) (old new : Ast) :
    changes o old.asGiven new.asGiven = changes o old new := by
  have changed (narrowed : List String) : (new.endpoints.map Endpoint.asGiven).filterMap
      (endpointChange? o old.asGiven narrowed) =
        new.endpoints.filterMap (endpointChange? o old narrowed) := by
    rw [List.filterMap_map]
    exact congrArg (List.filterMap · _) (funext (endpointChange?_asGiven o old narrowed))
  have removed : (old.endpoints.map Endpoint.asGiven).filterMap (removal? new.asGiven) =
      old.endpoints.filterMap (removal? new) := by
    rw [List.filterMap_map]
    exact congrArg (List.filterMap · _) (funext (removal?_asGiven new))
  unfold changes
  rw [← changed, ← removed]
  rfl

/-- A comparison depends on nothing but what the sources give. -/
theorem diff_asGiven (o : DiffOptions) (old new : Ast) :
    diff o old.asGiven new.asGiven = diff o old new := by
  rw [diff, diff, fault?_asGiven, fault?_asGiven, changes_asGiven]

/-- **Enhancements are invisible to comparisons.**  A description with texts written for its
endpoints differs from what it was in these texts only, and two such descriptions are compared, or
rejected, as they were before. -/
theorem enhancement_invisible (a b : Ast) (m n : List (EndpointKey × String)) (o : DiffOptions) :
    a.TextsOnly m (a.withEnhancements m) ∧
      diff o (a.withEnhancements m) (b.withEnhancements n) = diff o a b := by
  refine ⟨a.textsOnly_withEnhancements m, ?_⟩
  calc diff o (a.withEnhancements m) (b.withEnhancements n)
      = diff o (a.withEnhancements m).asGiven (b.withEnhancements n).asGiven :=
        (diff_asGiven o _ _).symm
    _ = diff o a.asGiven b.asGiven := by
        rw [a.asGiven_withEnhancements, b.asGiven_withEnhancements]
    _ = diff o a b := diff_asGiven o a b

end Diff

end ApiCanon
