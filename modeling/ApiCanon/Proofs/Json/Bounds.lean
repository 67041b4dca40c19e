import ApiCanon.Json.Reader
import Mathlib.Tactic.Lemma
import Mathlib.Tactic.SplitIfs

/-!
# Bounds of the JSON reader

The reader is bounded in two ways: by the number of calls and by the number of brackets.  A bound
only ever turns an answer into a fault: what is read within some bounds is read alike within wider
ones (`readValue_mono`).  So statements about what is read may presume bounds as wide as they need.
-/

namespace ApiCanon.Json

/-- The second computation succeeds wherever the first one does, and with the same answer. -/
def Extends {ε α : Type} (a b : Except ε α) : Prop := ∀ x, a = .ok x → b = .ok x

namespace Extends

variable {ε α β : Type}

lemma refl (a : Except ε α) : Extends a a := fun _ h => h

lemma error (e : ε) (b : Except ε α) : Extends (.error e) b := fun _ h => nomatch h

lemma map {a b : Except ε α} (h : Extends a b) (f : α → β) : Extends (a.map f) (b.map f) := by
  intro y hy
  cases a with
  | error e => cases hy
  | ok x =>
    rw [h x rfl]
    exact hy

lemma bind {a b : Except ε α} {f g : α → Except ε β} (h : Extends a b)
    (hf : ∀ x, Extends (f x) (g x)) : Extends (a >>= f) (b >>= g) := by
  intro y hy
  cases a with
  | error e => cases hy
  | ok x =>
    rw [h x rfl]
    exact hf x y hy

end Extends

/-- What wider bounds mean for each of the five readers. -/
structure Widens (fuel fuel' : Nat) : Prop where
  value : ∀ {depth depth' : Nat}, depth ≤ depth' → ∀ s,
    Extends (readValue fuel depth s) (readValue fuel' depth' s)
  items : ∀ {depth depth' : Nat}, depth ≤ depth' → ∀ first s,
    Extends (readItems fuel depth first s) (readItems fuel' depth' first s)
  item : ∀ {depth depth' : Nat}, depth ≤ depth' → ∀ s,
    Extends (readItem fuel depth s) (readItem fuel' depth' s)
  fields : ∀ {depth depth' : Nat}, depth ≤ depth' → ∀ first seen s,
    Extends (readFields fuel depth first seen s) (readFields fuel' depth' first seen s)
  field : ∀ {depth depth' : Nat}, depth ≤ depth' → ∀ seen s,
    Extends (readField fuel depth seen s) (readField fuel' depth' seen s)

/-- One more call on both sides. -/
lemma Widens.succ {fuel fuel' : Nat} (h : Widens fuel fuel') : Widens (fuel + 1) (fuel' + 1) where
  value := by
    intro depth depth' hd s
    rw [readValue, readValue]
    split
    case h_7 =>
      split_ifs
      · exact .refl _
      · exact .error _ _
      · omega
      · exact (h.items (by omega) _ _).map _
    case h_8 =>
      split_ifs
      · exact .refl _
      · exact .error _ _
      · omega
      · exact (h.fields (by omega) _ _ _).map _
    all_goals exact .refl _
  items := by
    intro depth depth' hd first s
    rw [readItems, readItems]
    split
    · exact .refl _
    · exact .refl _
    · split_ifs
      · exact h.item hd _
      · split
        · exact .refl _
        · exact .refl _
        · exact h.item hd _
      · exact .refl _
  item := by
    intro depth depth' hd s
    rw [readItem, readItem]
    exact (h.value hd s).bind fun x => (h.items hd false x.2).bind fun y => .refl _
  fields := by
    intro depth depth' hd first seen s
    rw [readFields, readFields]
    split
    · exact .refl _
    · exact .refl _
    · split_ifs
      · exact h.field hd _ _
      · exact .refl _
      · split
        · exact .refl _
        · exact h.field hd _ _
        · exact .refl _
        · exact .refl _
      · exact .refl _
  field := by
    intro depth depth' hd seen s
    rw [readField, readField]
    refine (Extends.refl _).bind fun x => ?_
    obtain ⟨k, r⟩ := x
    dsimp only
    split
    · exact .refl _
    · exact (h.value hd _).bind fun y => h.fields hd _ _ _
    · exact .refl _

lemma widens {fuel fuel' : Nat} (h : fuel ≤ fuel') : Widens fuel fuel' := by
  induction fuel generalizing fuel' with
  | zero =>
    constructor
    · intro _ _ _ s
      rw [readValue]
      exact .error _ _
    · intro _ _ _ first s
      rw [readItems]
      exact .error _ _
    · intro _ _ _ s
      rw [readItem]
      exact .error _ _
    · intro _ _ _ first seen s
      rw [readFields]
      exact .error _ _
    · intro _ _ _ seen s
      rw [readField]
      exact .error _ _
  | succ fuel ih =>
    obtain ⟨fuel', rfl⟩ : ∃ k, fuel' = k + 1 := ⟨fuel' - 1, by omega⟩
    exact (ih (by omega)).succ

/-- What is read within some bounds is read alike within wider ones. -/
theorem readValue_mono {fuel fuel' depth depth' : Nat} (hf : fuel ≤ fuel') (hd : depth ≤ depth')
    {s : List Char} {x : Value × List Char} (h : readValue fuel depth s = .ok x) :
    readValue fuel' depth' s = .ok x :=
  (widens hf).value hd s x h

end ApiCanon.Json
