import ApiCanon.Binary.Basic
import Mathlib.Tactic.Lemma
import Mathlib.Tactic.Ring

/-!
# Equality of binary numbers

Numbers are compared by cross-multiplying their ratios, with a case of its own for the zeros, which
are equal whatever their signs.  The comparison is an equivalence.
-/

namespace ApiCanon.Binary.Finite

lemma ratio_den_pos (x : Finite) : 0 < x.ratio.2 := by
  unfold ratio
  split
  · exact Nat.one_pos
  · exact Nat.pow_pos (by omega)

lemma ratio_num_eq_zero_iff (x : Finite) : x.ratio.1 = 0 ↔ x.isZero := by
  unfold ratio isZero
  split <;> simp

lemma sameValue_refl (x : Finite) : x.sameValue x := by
  simp [sameValue]

lemma sameValue_symm {x y : Finite} (h : x.sameValue y) : y.sameValue x := by
  simp only [sameValue, Bool.or_eq_true, Bool.and_eq_true, beq_iff_eq] at h ⊢
  rcases h with ⟨hx, hy⟩ | ⟨hs, hr⟩
  · exact Or.inl ⟨hy, hx⟩
  · exact Or.inr ⟨hs.symm, hr.symm⟩

/-- A number that is equal to a zero is a zero, whatever the signs. -/
lemma isZero_of_sameValue {x y : Finite} (h : x.sameValue y) (hx : x.isZero) : y.isZero := by
  simp only [sameValue, Bool.or_eq_true, Bool.and_eq_true, beq_iff_eq] at h
  rcases h with ⟨-, hy⟩ | ⟨-, hr⟩
  · exact hy
  · rw [(ratio_num_eq_zero_iff x).2 hx, Nat.zero_mul] at hr
    have hy : y.ratio.1 = 0 := by
      rcases Nat.mul_eq_zero.1 hr.symm with h0 | h0
      · exact h0
      · exact absurd h0 (Nat.pos_iff_ne_zero.1 (ratio_den_pos x))
    exact (ratio_num_eq_zero_iff y).1 hy

lemma sameValue_trans {x y z : Finite} (h : x.sameValue y) (h' : y.sameValue z) :
    x.sameValue z := by
  by_cases hy : y.isZero
  · have hx := isZero_of_sameValue (sameValue_symm h) hy
    have hz := isZero_of_sameValue h' hy
    simp [sameValue, hx, hz]
  · simp only [sameValue, Bool.or_eq_true, Bool.and_eq_true, beq_iff_eq, hy, and_false,
      false_and, false_or, Bool.false_eq_true] at h h' ⊢
    refine Or.inr ⟨h.1.trans h'.1, ?_⟩
    have cross : x.ratio.1 * z.ratio.2 * y.ratio.2 = z.ratio.1 * x.ratio.2 * y.ratio.2 := by
      calc x.ratio.1 * z.ratio.2 * y.ratio.2
          = (x.ratio.1 * y.ratio.2) * z.ratio.2 := by ring
        _ = (y.ratio.1 * x.ratio.2) * z.ratio.2 := by rw [h.2]
        _ = (y.ratio.1 * z.ratio.2) * x.ratio.2 := by ring
        _ = (z.ratio.1 * y.ratio.2) * x.ratio.2 := by rw [h'.2]
        _ = z.ratio.1 * x.ratio.2 * y.ratio.2 := by ring
    exact Nat.eq_of_mul_eq_mul_right (ratio_den_pos y) cross

end ApiCanon.Binary.Finite
