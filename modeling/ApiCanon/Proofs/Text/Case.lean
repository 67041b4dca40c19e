import ApiCanon.Text.Blank
import ApiCanon.Text.Case
import Mathlib.Tactic.Lemma

/-!
# Case of ASCII letters

Capitals and small letters are the same letters: a text in small letters is told by its capitals
(`asciiLower_asciiUpper`), and the other way round (`asciiUpper_asciiLower`).  The characters of
names are letters, digits and underscores, none of them blank.  What is to be known of single
characters is tried out on the ASCII characters; no other one has a case.
-/

namespace ApiCanon.Text

/-- What holds of the ASCII characters one by one holds of all of them. -/
lemma forall_ascii {P : Char → Prop} (each : ∀ n < 128, P (Char.ofNat n)) {c : Char}
    (ascii : c.toNat < 128) : P c := by
  rw [← Char.ofNat_toNat c]
  exact each _ ascii

lemma ascii_of_isUpper {c : Char} (h : c.isUpper = true) : c.toNat < 128 := by
  have range : 'A'.val ≤ c.val ∧ c.val ≤ 'Z'.val := of_decide_eq_true h
  have last : c.toNat ≤ 'Z'.toNat := range.2
  exact Nat.lt_of_le_of_lt last (by decide)

lemma ascii_of_isLower {c : Char} (h : c.isLower = true) : c.toNat < 128 := by
  have last : c.toNat ≤ 'z'.toNat := of_decide_eq_true (Bool.and_eq_true_iff.1 h).2
  exact Nat.lt_of_le_of_lt last (by decide)

lemma ascii_of_isAlphanum {c : Char} (h : c.isAlphanum = true) : c.toNat < 128 := by
  rcases Bool.or_eq_true_iff.1 h with letter | digit
  · exact (Bool.or_eq_true_iff.1 letter).elim ascii_of_isUpper ascii_of_isLower
  · have last : c.toNat ≤ '9'.toNat := of_decide_eq_true (Bool.and_eq_true_iff.1 digit).2
    exact Nat.lt_of_le_of_lt last (by decide)

/-- Characters that are no ASCII characters have no case. -/
lemma caseless_of_not_ascii {c : Char} (other : ¬c.toNat < 128) :
    asciiLowerChar c = c ∧ asciiUpperChar c = c :=
  ⟨if_neg fun h => other (ascii_of_isUpper h), if_neg fun h => other (ascii_of_isLower h)⟩

lemma asciiLowerChar_asciiUpperChar (c : Char) :
    asciiLowerChar (asciiUpperChar c) = asciiLowerChar c := by
  by_cases ascii : c.toNat < 128
  · exact forall_ascii (P := fun c => asciiLowerChar (asciiUpperChar c) = asciiLowerChar c)
      (by decide) ascii
  · rw [(caseless_of_not_ascii ascii).2]

lemma asciiUpperChar_asciiLowerChar (c : Char) :
    asciiUpperChar (asciiLowerChar c) = asciiUpperChar c := by
  by_cases ascii : c.toNat < 128
  · exact forall_ascii (P := fun c => asciiUpperChar (asciiLowerChar c) = asciiUpperChar c)
      (by decide) ascii
  · rw [(caseless_of_not_ascii ascii).1]

lemma asciiLower_asciiUpper (s : String) : asciiLower (asciiUpper s) = asciiLower s := by
  refine String.toList_injective ?_
  simp [asciiLower, asciiUpper, asciiLowerChar_asciiUpperChar]

lemma asciiUpper_asciiLower (s : String) : asciiUpper (asciiLower s) = asciiUpper s := by
  refine String.toList_injective ?_
  simp [asciiLower, asciiUpper, asciiUpperChar_asciiLowerChar]

/-! ## Names -/

/-- Whether a character belongs to a name: an ASCII letter, a digit or an underscore. -/
def isNameChar (c : Char) : Bool := c.isAlphanum || c == '_'

lemma isBlank_of_isNameChar {c : Char} (h : isNameChar c = true) : isBlank c = false := by
  rcases Bool.or_eq_true_iff.1 h with letter | underscore
  · exact forall_ascii (P := fun c => c.isAlphanum = true → isBlank c = false) (by decide)
      (ascii_of_isAlphanum letter) letter
  · rw [beq_iff_eq.1 underscore]
    decide

/-- A character that belongs to no name is none of those of a name. -/
lemma ne_of_isNameChar {c d : Char} (h : isNameChar c = true) (other : isNameChar d = false) :
    c ≠ d := by
  rintro rfl
  rw [h] at other
  cases other

end ApiCanon.Text
