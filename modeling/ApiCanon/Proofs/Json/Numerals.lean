import ApiCanon.Json.Printer
import ApiCanon.Proofs.Json.Bounds
import Mathlib.Tactic.SplitIfs
import Mathlib.Tactic.Tauto

/-!
# Numerals

A number *reads back* if the reader finds it again in its own text.  A whole number of 64 bits
always does (`Number.readsBack_int`).  A binary fraction need not, as the reader does not always
find the nearest double; for those it is an assumption.

A numeral is read up to the end of its text.  Since a comma or a closing bracket can not belong
to a numeral, it is read alike in front of one (`readValue_numeral_append`).
-/

namespace ApiCanon.Json

/-- Nothing follows, or else something that ends a value. -/
def Delimited (rest : List Char) : Prop := ∀ c r, rest = c :: r → c = ',' ∨ c = ']' ∨ c = '\x7d'

/-- The text of the number is read as the number. -/
def Number.ReadsBack (n : Number) : Prop := readValue 1 1 n.text.toList = .ok (.number n, [])

lemma delimited_nil : Delimited [] := fun _ _ h => nomatch h

lemma delimited_comma (r : List Char) : Delimited (',' :: r) := by
  rintro c r' ⟨⟩
  exact Or.inl rfl

lemma delimited_bracket (r : List Char) : Delimited (']' :: r) := by
  rintro c r' ⟨⟩
  exact Or.inr (Or.inl rfl)

lemma delimited_brace (r : List Char) : Delimited ('\x7d' :: r) := by
  rintro c r' ⟨⟩
  exact Or.inr (Or.inr rfl)

/-! ## Numerals in front of a delimiter -/

section Delimited

variable {rest : List Char} (hrest : Delimited rest)

include hrest

/-- No numeral goes on with what ends a value. -/
lemma Delimited.not_numeral {c : Char} {r : List Char} (h : rest = c :: r) :
    c.isDigit = false ∧ c ≠ '.' ∧ c ≠ 'e' ∧ c ≠ 'E' := by
  rcases hrest c r h with rfl | rfl | rfl <;> decide

lemma startsWithDigit_append (s : List Char) :
    startsWithDigit (s ++ rest) = startsWithDigit s := by
  cases s with
  | nil =>
    cases h : rest with
    | nil => rfl
    | cons c r => exact (hrest.not_numeral h).1
  | cons c r => rfl

lemma dropDigits_append (s : List Char) :
    (s ++ rest).dropWhile Char.isDigit = s.dropWhile Char.isDigit ++ rest := by
  induction s with
  | nil =>
    cases h : rest with
    | nil => rfl
    | cons c r => simp [(hrest.not_numeral h).1]
  | cons c r ih => cases h : c.isDigit <;> simp [h, ih]

lemma takeDigits_append (s : List Char) :
    (s ++ rest).takeWhile Char.isDigit = s.takeWhile Char.isDigit := by
  induction s with
  | nil =>
    cases h : rest with
    | nil => rfl
    | cons c r => simp [(hrest.not_numeral h).1]
  | cons c r ih => cases h : c.isDigit <;> simp [h, ih]

lemma gatherDigits_append (acc count : Nat) (s : List Char) :
    gatherDigits acc count (s ++ rest) =
      ((gatherDigits acc count s).1, (gatherDigits acc count s).2.1,
        (gatherDigits acc count s).2.2 ++ rest) := by
  induction s generalizing acc count with
  | nil =>
    cases h : rest with
    | nil => rfl
    | cons c r => simp [gatherDigits, (hrest.not_numeral h).1]
  | cons c r ih =>
    rw [List.cons_append, gatherDigits, gatherDigits]
    split_ifs
    · exact ih _ _
    · rfl

lemma gatherExponent_append (acc : Nat) (s : List Char) :
    gatherExponent acc (s ++ rest) =
      match gatherExponent acc s with
      | .ok (e, r) => .ok (e, r ++ rest)
      | .error r => .error (r ++ rest) := by
  induction s generalizing acc with
  | nil =>
    cases h : rest with
    | nil => rfl
    | cons c r => simp [gatherExponent, (hrest.not_numeral h).1]
  | cons c r ih =>
    rw [List.cons_append, gatherExponent, gatherExponent]
    split_ifs
    · exact ih _
    · rfl
    · rfl

omit hrest in
lemma doubleOfParts_append {negative : Bool} {m : Nat} {e : Int} {s r : List Char} {n : Number}
    (h : doubleOfParts negative m e s = .ok (n, r)) :
    doubleOfParts negative m e (s ++ rest) = .ok (n, r ++ rest) := by
  unfold doubleOfParts at h ⊢
  split at h
  · obtain ⟨rfl, rfl⟩ := Prod.mk.inj (Except.ok.inj h)
    rfl
  · cases h

lemma readExponentDigits_append {negative down : Bool} {m : Nat} {start : Int} {s r : List Char}
    {n : Number} (h : readExponentDigits negative down m start s = .ok (n, r)) :
    readExponentDigits negative down m start (s ++ rest) = .ok (n, r ++ rest) := by
  cases s with
  | nil => cases h
  | cons c s =>
    rw [List.cons_append, readExponentDigits]
    rw [readExponentDigits] at h
    by_cases digit : (!c.isDigit) = true
    · rw [if_pos digit] at h
      cases h
    rw [if_neg digit] at h ⊢
    rw [gatherExponent_append hrest]
    cases hg : gatherExponent (digitValue c) s with
    | ok x =>
      rw [hg] at h
      exact doubleOfParts_append h
    | error x =>
      rw [hg] at h
      dsimp only at h ⊢
      by_cases large : m ≠ 0 ∧ (!down) = true
      · rw [if_pos large] at h
        cases h
      · rw [if_neg large] at h ⊢
        obtain ⟨rfl, rfl⟩ := Prod.mk.inj (Except.ok.inj h)
        rw [dropDigits_append hrest]

lemma readExponent_append {negative : Bool} {m : Nat} {start : Int} {s r : List Char} {n : Number}
    (h : readExponent negative m start s = .ok (n, r)) :
    readExponent negative m start (s ++ rest) = .ok (n, r ++ rest) := by
  unfold readExponent at h
  split at h
  · exact readExponentDigits_append hrest h
  · exact readExponentDigits_append hrest h
  · next _ noPlus noMinus =>
    have digits := readExponentDigits_append hrest h
    rcases s with _ | ⟨c, s⟩
    · cases h
    · rw [List.cons_append] at digits ⊢
      unfold readExponent
      split
      · next heq => exact (noPlus s (by rw [(List.cons.inj heq).1])).elim
      · next heq => exact (noMinus s (by rw [(List.cons.inj heq).1])).elim
      · exact digits

/-- A delimiter is not the mark of an exponent or of a fraction. -/
lemma append_ne_cons {s t : List Char} {c : Char} (mark : c = '.' ∨ c = 'e' ∨ c = 'E')
    (hs : ∀ r, s ≠ c :: r) : s ++ rest ≠ c :: t := by
  intro h
  rcases s with _ | ⟨d, s⟩
  · have := hrest.not_numeral h
    tauto
  · obtain ⟨rfl, -⟩ := List.cons.inj h
    exact hs s rfl

lemma readMantissaEnd_append {negative : Bool} {m : Nat} {e : Int} {s r : List Char} {n : Number}
    (h : readMantissaEnd negative m e s = .ok (n, r)) :
    readMantissaEnd negative m e (s ++ rest) = .ok (n, r ++ rest) := by
  unfold readMantissaEnd at h
  split at h
  · exact readExponent_append hrest h
  · exact readExponent_append hrest h
  · next _ noSmall noCapital =>
    unfold readMantissaEnd
    split
    · next heq => exact absurd heq (append_ne_cons hrest (by simp) noSmall)
    · next heq => exact absurd heq (append_ne_cons hrest (by simp) noCapital)
    · exact doubleOfParts_append h

lemma readFraction_append {negative : Bool} {m : Nat} {e : Int} {s r : List Char} {n : Number}
    (h : readFraction negative m e s = .ok (n, r)) :
    readFraction negative m e (s ++ rest) = .ok (n, r ++ rest) := by
  unfold readFraction at h ⊢
  rw [gatherDigits_append hrest]
  generalize gatherDigits m 0 s = gathered at h ⊢
  obtain ⟨m', count, t⟩ := gathered
  dsimp only at h ⊢
  rw [startsWithDigit_append hrest]
  split_ifs at h ⊢
  · rw [dropDigits_append hrest]
    exact readMantissaEnd_append hrest h
  · exact readMantissaEnd_append hrest h

lemma readNumberEnd_append {negative : Bool} {m : Nat} {s r : List Char} {n : Number}
    (h : readNumberEnd negative m s = .ok (n, r)) :
    readNumberEnd negative m (s ++ rest) = .ok (n, r ++ rest) := by
  unfold readNumberEnd at h
  split at h
  · exact readFraction_append hrest h
  · exact readExponent_append hrest h
  · exact readExponent_append hrest h
  · next _ noPoint noSmall noCapital =>
    unfold readNumberEnd
    split
    · next heq => exact absurd heq (append_ne_cons hrest (by simp) noPoint)
    · next heq => exact absurd heq (append_ne_cons hrest (by simp) noSmall)
    · next heq => exact absurd heq (append_ne_cons hrest (by simp) noCapital)
    · split_ifs at h ⊢
      · obtain ⟨rfl, rfl⟩ := Prod.mk.inj (Except.ok.inj h)
        rfl
      · exact doubleOfParts_append h
      · obtain ⟨rfl, rfl⟩ := Prod.mk.inj (Except.ok.inj h)
        rfl

lemma readNumber_append {negative : Bool} {s r : List Char} {n : Number}
    (h : readNumber negative s = .ok (n, r)) :
    readNumber negative (s ++ rest) = .ok (n, r ++ rest) := by
  unfold readNumber at h
  split at h
  · cases h
  · rw [List.cons_append, readNumber, startsWithDigit_append hrest]
    split_ifs at h ⊢
    exact readNumberEnd_append hrest h
  · next c s zero =>
    rw [List.cons_append, readNumber]
    · by_cases digit : (!c.isDigit) = true
      · rw [if_pos digit] at h
        cases h
      rw [if_neg digit] at h ⊢
      rw [gatherDigits_append hrest]
      generalize gatherDigits (digitValue c) 0 s = gathered at h ⊢
      obtain ⟨m, count, t⟩ := gathered
      dsimp only at h ⊢
      rw [startsWithDigit_append hrest]
      by_cases beyond : startsWithDigit t = true
      · rw [if_pos beyond] at h ⊢
        rw [takeDigits_append hrest, dropDigits_append hrest]
        split at h
        · next heq =>
          rw [heq, List.cons_append]
          exact readFraction_append hrest h
        · next noPoint =>
          split
          · next heq => exact absurd heq (append_ne_cons hrest (by simp) noPoint)
          · exact readMantissaEnd_append hrest h
      · rw [if_neg beyond] at h ⊢
        exact readNumberEnd_append hrest h
    · exact zero

omit hrest in
lemma skipBlanks_append {s t : List Char} {c : Char} (h : skipBlanks s = c :: t) :
    skipBlanks (s ++ rest) = c :: t ++ rest := by
  unfold skipBlanks at h ⊢
  rw [List.dropWhile_append, h]
  rfl

omit hrest in
lemma readWord_eq {word s r : List Char} {v w : Value} (h : readWord word v s = .ok (w, r)) :
    w = v := by
  induction word generalizing s with
  | nil => exact (Prod.mk.inj (Except.ok.inj h)).1.symm
  | cons c word ih =>
    cases s with
    | nil => cases h
    | cons d s =>
      rw [readWord] at h
      split_ifs at h
      exact ih h

omit hrest in
lemma ne_of_isDigit {c d : Char} (hc : c.isDigit = true) (hd : d.isDigit = false) : c ≠ d := by
  rintro rfl
  rw [hd] at hc
  cases hc

omit hrest in
lemma readValue_of_digit (fuel depth : Nat) {s r : List Char} {c : Char}
    (h : skipBlanks s = c :: r) (digit : c.isDigit = true) :
    readValue (fuel + 1) depth s =
      (readNumber false (c :: r)).map fun (n, r) => (.number n, r) := by
  have other := fun d => ne_of_isDigit (d := d) digit
  rw [readValue, h]
  split
  · next heq => cases heq
  · next heq => exact absurd (List.cons.inj heq).1 (other 'n' (by decide))
  · next heq => exact absurd (List.cons.inj heq).1 (other 't' (by decide))
  · next heq => exact absurd (List.cons.inj heq).1 (other 'f' (by decide))
  · next heq => exact absurd (List.cons.inj heq).1 (other '-' (by decide))
  · next heq => exact absurd (List.cons.inj heq).1 (other '"' (by decide))
  · next heq => exact absurd (List.cons.inj heq).1 (other '[' (by decide))
  · next heq => exact absurd (List.cons.inj heq).1 (other '\x7b' (by decide))
  · next heq =>
    obtain ⟨rfl, rfl⟩ := List.cons.inj heq
    rw [if_pos digit]

/-- A numeral is read alike in front of what ends a value. -/
theorem readValue_numeral_append {n : Number} (h : n.ReadsBack) :
    readValue 1 1 (n.text.toList ++ rest) = .ok (.number n, rest) := by
  have number : ∀ {negative : Bool} {s : List Char},
      (readNumber negative s).map (fun (m, r) => (Value.number m, r)) = .ok (.number n, []) →
        (readNumber negative (s ++ rest)).map (fun (m, r) => (Value.number m, r)) =
          .ok (.number n, rest) := by
    intro negative s hs
    cases hm : readNumber negative s with
    | error e =>
      rw [hm] at hs
      cases hs
    | ok x =>
      obtain ⟨m, r⟩ := x
      rw [hm] at hs
      obtain ⟨hm', rfl⟩ := Prod.mk.inj (Except.ok.inj hs)
      obtain rfl := Value.number.inj hm'
      rw [readNumber_append hrest hm]
      rfl
  unfold Number.ReadsBack at h
  rw [readValue] at h
  split at h
  · cases h
  · cases readWord_eq h
  · cases readWord_eq h
  · cases readWord_eq h
  · next heq =>
    rw [readValue, skipBlanks_append heq]
    exact number h
  · next r _ => cases hr : readText r <;> rw [hr] at h <;> cases h
  · cases h
  · cases h
  · next heq =>
    split_ifs at h with digit
    rw [readValue_of_digit 0 1 (skipBlanks_append heq) digit]
    exact number h

end Delimited

/-! ## Whole numbers -/

lemma gatherDigits_eq {s : List Char} (digits : ∀ c ∈ s, c.isDigit = true) (acc count : Nat)
    (fits : Nat.ofDigitChars 10 s acc < Nat.pow 2 64) :
    gatherDigits acc count s = (Nat.ofDigitChars 10 s acc, count + s.length, []) := by
  induction s generalizing acc count with
  | nil => rfl
  | cons c r ih =>
    have value : acc * 10 + digitValue c = 10 * acc + (c.toNat - '0'.toNat) := by
      rw [Nat.mul_comm]
      rfl
    rw [Nat.ofDigitChars_cons, ← value] at fits ⊢
    have grows : ∀ (l : List Char) (n : Nat), n ≤ Nat.ofDigitChars 10 l n := by
      intro l
      induction l with
      | nil => exact fun n => Nat.le_refl n
      | cons d l ih' =>
        intro n
        rw [Nat.ofDigitChars_cons]
        exact Nat.le_trans (by omega) (ih' _)
    have small := Nat.lt_of_le_of_lt (grows r _) fits
    rw [gatherDigits, digits c List.mem_cons_self]
    simp only [Bool.true_and, decide_eq_true_eq]
    rw [if_pos small, ih (fun d hd => digits d (List.mem_cons_of_mem c hd)) _ _ fits,
      List.length_cons]
    congr 2
    omega

/-- The first digit of a positive number is not zero. -/
lemma toDigits_eq_cons {n : Nat} (pos : 0 < n) :
    ∃ c r, Nat.toDigits 10 n = c :: r ∧ c ≠ '0' := by
  induction n using Nat.strongRecOn with
  | ind n ih =>
    by_cases small : n < 10
    · rw [Nat.toDigits_of_lt_base small]
      refine ⟨_, [], rfl, ?_⟩
      clear ih
      revert pos
      revert n
      decide
    · obtain ⟨c, r, h, hc⟩ := ih (n / 10) (by omega) (by omega)
      rw [Nat.toDigits_of_base_le (by omega) (by omega), h]
      exact ⟨c, r ++ _, rfl, hc⟩

/-- The digits of a number are read as the number, whatever the sign in front. -/
lemma readNumber_toDigits (negative : Bool) {n : Nat} (fits : n < Nat.pow 2 64) :
    readNumber negative (Nat.toDigits 10 n) = readNumberEnd negative n [] := by
  rcases Nat.eq_zero_or_pos n with rfl | pos
  · rfl
  · obtain ⟨c, r, h, hc⟩ := toDigits_eq_cons pos
    have digits : ∀ d ∈ c :: r, d.isDigit = true := by
      rw [← h]
      exact fun d hd => Nat.isDigit_of_mem_toDigits (by omega) (by omega) hd
    have value : Nat.ofDigitChars 10 r (digitValue c) = n := by
      have := Nat.ofDigitChars_ten_toDigits (n := n)
      rw [h, Nat.ofDigitChars_cons] at this
      simpa [digitValue] using this
    rw [h, readNumber]
    · rw [digits c List.mem_cons_self, Bool.not_true, if_neg Bool.false_ne_true,
        gatherDigits_eq (fun d hd => digits d (List.mem_cons_of_mem c hd)) _ _ (by omega), value]
      rfl
    · exact fun h => hc h

/-- **Whole numbers of 64 bits read back.** -/
theorem Number.readsBack_int {i : Int} (low : -Nat.pow 2 63 ≤ i) (high : i < Nat.pow 2 64) :
    (Number.int i).ReadsBack := by
  unfold Number.ReadsBack
  cases i with
  | ofNat n =>
    have text : (Number.int (.ofNat n)).text.toList = Nat.toDigits 10 n := Nat.toList_repr
    have fits : n < Nat.pow 2 64 := by
      have : ((n : Nat) : Int) < Nat.pow 2 64 := high
      omega
    obtain ⟨c, r, h⟩ := List.exists_cons_of_ne_nil (Nat.toDigits_ne_nil (n := n) (b := 10))
    have digit : c.isDigit = true :=
      Nat.isDigit_of_mem_toDigits (n := n) (b := 10) (by omega) (by omega) (h ▸ List.mem_cons_self)
    have blanks : skipBlanks (c :: r) = c :: r := by
      have other := fun d => ne_of_isDigit (d := d) digit
      simp [skipBlanks, other ' ' (by decide), other '\n' (by decide), other '\t' (by decide),
        other '\r' (by decide)]
    rw [text, h, readValue_of_digit 0 1 blanks digit, ← h, readNumber_toDigits false fits]
    rfl
  | negSucc n =>
    have text : (Number.int (.negSucc n)).text.toList = '-' :: Nat.toDigits 10 (n + 1) := by
      show (toString (Int.negSucc n)).toList = _
      rw [Int.toString_eq_repr, Int.repr, String.toList_append, Nat.toList_repr]
      rfl
    have fits : n + 1 ≤ Nat.pow 2 63 := by omega
    have small : ¬(n + 1 = 0 ∨ Nat.pow 2 63 < n + 1) := by omega
    have sign : ∀ s, readValue 1 1 ('-' :: s) =
        (readNumber true s).map fun (n, r) => (.number n, r) := by
      intro s
      rw [readValue]
      rfl
    have ending : readNumberEnd true (n + 1) [] = .ok (.int (.negSucc n), []) := by
      simp only [readNumberEnd, Bool.not_true, if_neg Bool.false_ne_true, if_neg small]
      rfl
    have wider : Nat.pow 2 63 < Nat.pow 2 64 := by decide
    rw [text, sign, readNumber_toDigits true (Nat.lt_of_le_of_lt fits wider), ending]
    rfl

end ApiCanon.Json
