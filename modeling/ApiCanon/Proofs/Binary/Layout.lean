import ApiCanon.Binary.Decimal
import ApiCanon.Proofs.Binary.Rounding
import Mathlib.Data.List.TakeWhile

/-!
# The text of a double

A decimal is read back from its text, in either notation, with its value (`Spells`, shown for both
notations).  As the shortest decimal of a double stands for it, and for no other double, the text of
a double determines it (`jsonText_injective`), the sign of a zero included.
-/

namespace ApiCanon.Binary

/-! ## Digits -/

lemma natOfDigits_eq (ds : List Char) : Decimal.natOfDigits ds = Nat.ofDigitChars 10 ds 0 := by
  have step : ∀ (ds : List Char) (n : Nat),
      ds.foldl (fun acc c => acc * 10 + (c.toNat - 48)) n = Nat.ofDigitChars 10 ds n := by
    intro ds
    induction ds with
    | nil => exact fun n => rfl
    | cons c ds ih =>
      intro n
      rw [List.foldl_cons, ih, Nat.ofDigitChars_cons, Nat.mul_comm]
      rfl
  exact step ds 0

lemma natOfDigits_toDigits (n : Nat) : Decimal.natOfDigits (Nat.toDigits 10 n) = n := by
  rw [natOfDigits_eq, Nat.ofDigitChars_ten_toDigits]

lemma natOfDigits_zeros (n : Nat) (ds : List Char) :
    Decimal.natOfDigits (List.replicate n '0' ++ ds) = Decimal.natOfDigits ds := by
  rw [natOfDigits_eq, natOfDigits_eq, Nat.ofDigitChars_append, Nat.ofDigitChars_replicate_zero,
    Nat.mul_zero]

lemma natOfDigits_append_zeros (ds : List Char) (n : Nat) :
    Decimal.natOfDigits (ds ++ List.replicate n '0') = Decimal.natOfDigits ds * 10 ^ n := by
  rw [natOfDigits_eq, natOfDigits_eq, Nat.ofDigitChars_append, Nat.ofDigitChars_replicate_zero,
    Nat.mul_comm]

/-- All characters are digits. -/
def AllDigits (s : List Char) : Prop := ∀ c ∈ s, c.isDigit = true

lemma allDigits_toDigits (n : Nat) : AllDigits (Nat.toDigits 10 n) :=
  fun _ hc => Nat.isDigit_of_mem_toDigits (by norm_num) (by norm_num) hc

lemma allDigits_zeros (n : Nat) : AllDigits (List.replicate n '0') := by
  intro c hc
  rw [List.eq_of_mem_replicate hc]
  rfl

lemma AllDigits.append {s t : List Char} (hs : AllDigits s) (ht : AllDigits t) :
    AllDigits (s ++ t) :=
  fun c hc => (List.mem_append.1 hc).elim (hs c) (ht c)

lemma AllDigits.sublist {s t : List Char} (ht : AllDigits t) (sub : s.Sublist t) : AllDigits s :=
  fun c hc => ht c (sub.subset hc)

/-- Digits are taken up to a character that is none. -/
lemma AllDigits.takeWhile_append {s : List Char} (hs : AllDigits s) {c : Char}
    (hc : c.isDigit = false) (r : List Char) : (s ++ c :: r).takeWhile Char.isDigit = s := by
  rw [List.takeWhile_append_of_pos hs, List.takeWhile_cons_of_neg (by simp [hc]), List.append_nil]

lemma AllDigits.dropWhile_append {s : List Char} (hs : AllDigits s) {c : Char}
    (hc : c.isDigit = false) (r : List Char) :
    (s ++ c :: r).dropWhile Char.isDigit = c :: r := by
  rw [List.dropWhile_append_of_pos hs, List.dropWhile_cons_of_neg (by simp [hc])]

lemma AllDigits.takeWhile {s : List Char} (hs : AllDigits s) : s.takeWhile Char.isDigit = s :=
  List.takeWhile_eq_self_iff.2 hs

lemma AllDigits.dropWhile {s : List Char} (hs : AllDigits s) : s.dropWhile Char.isDigit = [] :=
  List.dropWhile_eq_nil_iff.2 hs

/-! ## Numerals -/

/-- The characters of numerals. -/
def isNumeral (c : Char) : Bool := c.isDigit || c == '-' || c == '+' || c == '.' || c == 'e'

/-- A text begins with a digit. -/
def DigitFirst (s : List Char) : Prop := ∃ c r, s = c :: r ∧ c.isDigit = true

/-- A text that begins with a digit, has a point or an exponent, and is read as a decimal of a
value. -/
structure Spells (s : List Char) (v : ℚ) : Prop where
  head : DigitFirst s
  numeral : ∀ c ∈ s, isNumeral c = true
  marked : '.' ∈ s ∨ 'e' ∈ s
  value : ∃ d, Decimal.ofText? s = some d ∧ d.value = v

lemma AllDigits.numeral {s : List Char} (hs : AllDigits s) : ∀ c ∈ s, isNumeral c = true := by
  intro c hc
  simp [isNumeral, hs c hc]

lemma AllDigits.digitFirst_append {s : List Char} (hs : AllDigits s) (nonempty : s ≠ [])
    (t : List Char) : DigitFirst (s ++ t) := by
  obtain ⟨c, r, rfl⟩ := List.exists_cons_of_ne_nil nonempty
  exact ⟨c, r ++ t, rfl, hs c List.mem_cons_self⟩

/-- Digits with a point between them. -/
lemma spells_point {whole fraction : List Char} (hw : AllDigits whole) (hf : AllDigits fraction)
    (nonempty : whole ≠ []) :
    Spells (whole ++ '.' :: fraction)
      (Decimal.natOfDigits (whole ++ fraction) * 10 ^ (-(fraction.length : Int))) := by
  refine ⟨hw.digitFirst_append nonempty _, fun c hc => ?_, Or.inl (by simp), ?_⟩
  · rcases List.mem_append.1 hc with hc | hc
    · exact hw.numeral c hc
    · rcases List.mem_cons.1 hc with rfl | hc
      · rfl
      · exact hf.numeral c hc
  · refine ⟨⟨Decimal.natOfDigits (whole ++ fraction), -fraction.length⟩, ?_, rfl⟩
    unfold Decimal.ofText?
    rw [hw.takeWhile_append rfl, hw.dropWhile_append rfl]
    simp [hf.takeWhile, hf.dropWhile, nonempty]

/-- The text of an exponent with its sign. -/
def exponentText (e : Int) : List Char :=
  (if 0 ≤ e then '+' else '-') :: Nat.toDigits 10 e.natAbs

lemma exponent?_exponentText (e : Int) : Decimal.exponent? (exponentText e) = some e := by
  have digits : ((Nat.toDigits 10 e.natAbs).isEmpty ||
      !(Nat.toDigits 10 e.natAbs).all Char.isDigit) = false := by
    have nonempty : (Nat.toDigits 10 e.natAbs).isEmpty = false := by simp
    have all : (Nat.toDigits 10 e.natAbs).all Char.isDigit = true :=
      List.all_eq_true.2 (allDigits_toDigits _)
    rw [nonempty, all]
    rfl
  unfold exponentText
  split_ifs with sign
  · have size : (e.natAbs : Int) = e := by omega
    simp only [Decimal.exponent?, digits, natOfDigits_toDigits, size]
    rfl
  · have size : -(e.natAbs : Int) = e := by omega
    simp only [Decimal.exponent?, digits, natOfDigits_toDigits, size]
    rfl

/-- Digits with an exponent behind them, and a point between the first two if they are several. -/
lemma spells_exponent {c : Char} {fraction : List Char} (hc : c.isDigit = true)
    (hf : AllDigits fraction) (e : Int) :
    Spells ((match c :: fraction with
        | [] => []
        | [c] => [c]
        | c :: r => c :: '.' :: r) ++ 'e' :: exponentText e)
      (Decimal.natOfDigits (c :: fraction) * 10 ^ (e - fraction.length)) := by
  have first : AllDigits [c] := by simpa [AllDigits] using hc
  have exponent : ∀ d ∈ exponentText e, isNumeral d = true := by
    intro d hd
    unfold exponentText at hd
    rcases List.mem_cons.1 hd with rfl | hd
    · split_ifs <;> rfl
    · exact (allDigits_toDigits _).numeral d hd
  cases fraction with
  | nil =>
    refine ⟨⟨c, _, rfl, hc⟩, fun d hd => ?_, Or.inr (by simp), ?_⟩
    · rcases List.mem_append.1 hd with hd | hd
      · exact first.numeral d hd
      · rcases List.mem_cons.1 hd with rfl | hd
        · rfl
        · exact exponent d hd
    · refine ⟨⟨Decimal.natOfDigits [c], e - 0⟩, ?_, rfl⟩
      unfold Decimal.ofText?
      rw [first.takeWhile_append rfl, first.dropWhile_append rfl]
      simp [exponent?_exponentText]
  | cons d fraction =>
    refine ⟨⟨c, _, rfl, hc⟩, fun k hk => ?_, Or.inl (by simp), ?_⟩
    · rcases List.mem_append.1 hk with hk | hk
      · rcases List.mem_cons.1 hk with rfl | hk
        · exact first.numeral k List.mem_cons_self
        · rcases List.mem_cons.1 hk with rfl | hk
          · rfl
          · exact hf.numeral k hk
      · rcases List.mem_cons.1 hk with rfl | hk
        · rfl
        · exact exponent k hk
    · refine ⟨⟨Decimal.natOfDigits (c :: d :: fraction), e - (d :: fraction).length⟩, ?_, rfl⟩
      have split : c :: '.' :: (d :: fraction) ++ 'e' :: exponentText e =
          [c] ++ '.' :: (d :: fraction ++ 'e' :: exponentText e) := rfl
      show Decimal.ofText? (c :: '.' :: (d :: fraction) ++ 'e' :: exponentText e) = _
      unfold Decimal.ofText?
      rw [split, first.takeWhile_append rfl, first.dropWhile_append rfl]
      simp only [hf.takeWhile_append (c := 'e') rfl, hf.dropWhile_append (c := 'e') rfl]
      simp [exponent?_exponentText]

/-! ## Both notations -/

lemma toDigits_ne_nil (n : Nat) : Nat.toDigits 10 n ≠ [] := by simp

/-- Positional notation spells the decimal, whole numbers with a zero behind the point. -/
lemma spells_positional (d : Decimal) : Spells (d.positional ".0").toList d.value := by
  have digits := allDigits_toDigits d.digits
  have value := natOfDigits_toDigits d.digits
  have nonempty := toDigits_ne_nil d.digits
  unfold Decimal.positional Decimal.layout
  dsimp only
  generalize Nat.toDigits 10 d.digits = ds at digits value nonempty ⊢
  have length : 0 < ds.length := List.length_pos_of_ne_nil nonempty
  split_ifs with whole small
  · have text : (String.ofList (ds ++ List.replicate d.exponent.toNat '0') ++ ".0").toList =
        (ds ++ List.replicate d.exponent.toNat '0') ++ '.' :: List.replicate 1 '0' := by
      simp
    have same : (Decimal.natOfDigits (ds ++ List.replicate d.exponent.toNat '0' ++
          List.replicate 1 '0') : ℚ) * 10 ^ (-((List.replicate 1 '0').length : Int)) =
        d.value := by
      have power : (10 : ℚ) ^ d.exponent = 10 ^ d.exponent.toNat := by
        rw [← zpow_natCast, Int.toNat_of_nonneg whole]
      rw [natOfDigits_append_zeros, natOfDigits_append_zeros, value, Decimal.value, power,
        List.length_replicate]
      push_cast
      field_simp
    rw [text, ← same]
    exact spells_point (digits.append (allDigits_zeros _)) (allDigits_zeros _) (by simp [nonempty])
  · obtain ⟨p, hp⟩ : ∃ p, p = (d.exponent + ds.length - 1).toNat + 1 := ⟨_, rfl⟩
    rw [← hp, String.toList_ofList]
    have same : (Decimal.natOfDigits (ds.take p ++ ds.drop p) : ℚ) *
        10 ^ (-((ds.drop p).length : Int)) = d.value := by
      have places : -((ds.drop p).length : Int) = d.exponent := by
        rw [List.length_drop]
        omega
      rw [List.take_append_drop, value, places, Decimal.value]
    rw [← same]
    refine spells_point (digits.sublist (List.take_sublist _ _))
      (digits.sublist (List.drop_sublist _ _)) ?_
    refine List.ne_nil_of_length_pos ?_
    rw [List.length_take]
    omega
  · rw [String.toList_ofList]
    obtain ⟨k, hk⟩ : ∃ k, k = (-(d.exponent + ds.length - 1)).toNat - 1 := ⟨_, rfl⟩
    have same : (Decimal.natOfDigits (['0'] ++ (List.replicate k '0' ++ ds)) : ℚ) *
        10 ^ (-((List.replicate k '0' ++ ds).length : Int)) = d.value := by
      have places : -((List.replicate k '0' ++ ds).length : Int) = d.exponent := by
        rw [List.length_append, List.length_replicate]
        omega
      rw [show ['0'] = List.replicate 1 '0' from rfl, natOfDigits_zeros, natOfDigits_zeros, value,
        places, Decimal.value]
    have spelled : Spells (['0'] ++ '.' :: (List.replicate k '0' ++ ds)) _ :=
      spells_point (allDigits_zeros 1) ((allDigits_zeros k).append digits) (by simp)
    rw [same] at spelled
    rw [← hk]
    exact spelled

/-- Scientific notation spells the decimal. -/
lemma spells_scientific (d : Decimal) : Spells d.scientific.toList d.value := by
  have digits := allDigits_toDigits d.digits
  have value := natOfDigits_toDigits d.digits
  have nonempty := toDigits_ne_nil d.digits
  unfold Decimal.scientific Decimal.layout
  dsimp only
  generalize Nat.toDigits 10 d.digits = ds at digits value nonempty ⊢
  obtain ⟨c, fraction, rfl⟩ := List.exists_cons_of_ne_nil nonempty
  obtain ⟨e, he⟩ : ∃ e : Int, e = d.exponent + (c :: fraction).length - 1 := ⟨_, rfl⟩
  rw [← he]
  have same : (Decimal.natOfDigits (c :: fraction) : ℚ) * 10 ^ (e - fraction.length) = d.value := by
    have places : e - fraction.length = d.exponent := by
      rw [he, List.length_cons]
      push_cast
      ring
    rw [value, places, Decimal.value]
  have mark : ((if 0 ≤ e then "e+" else "e-") ++ toString e.natAbs).toList =
      'e' :: exponentText e := by
    have size : (toString e.natAbs).toList = Nat.toDigits 10 e.natAbs := by
      rw [Nat.toString_eq_repr, Nat.toList_repr]
    rw [String.toList_append, size, exponentText]
    split_ifs <;> rfl
  rw [String.append_assoc, String.toList_append, String.toList_ofList, mark, ← same]
  exact spells_exponent (digits c List.mem_cons_self)
    (fun k hk => digits k (List.mem_cons_of_mem c hk)) e

/-! ## The text determines the number -/

/-- The characters of a sign. -/
def signChars (negative : Bool) : List Char := if negative then ['-'] else []

lemma toList_signText (negative : Bool) : (signText negative).toList = signChars negative := by
  cases negative <;> rfl

/-- The text of a number is a sign and the spelling of its shortest decimal. -/
lemma Format.jsonText_eq (f : Format) (x : Finite) :
    ∃ s, (f.jsonText x).toList = signChars x.negative ++ s ∧ Spells s (f.shortest x).value := by
  unfold Format.jsonText
  dsimp only
  rw [String.toList_append, toList_signText]
  by_cases near : -5 ≤ (f.shortest x).layout.2 ∧ (f.shortest x).layout.2 ≤ 15
  · rw [if_pos near]
    exact ⟨_, rfl, spells_positional _⟩
  · rw [if_neg near]
    exact ⟨_, rfl, spells_scientific _⟩

lemma Spells.value_unique {s : List Char} {v w : ℚ} (hv : Spells s v) (hw : Spells s w) :
    v = w := by
  obtain ⟨d, read, rfl⟩ := hv.value
  obtain ⟨e, read', rfl⟩ := hw.value
  rw [read] at read'
  rw [Option.some.inj read']

/-- A sign can be told from the digit behind it. -/
lemma DigitFirst.split_sign {s t : List Char} {a b : Bool} (hs : DigitFirst s) (ht : DigitFirst t)
    (h : signChars a ++ s = signChars b ++ t) : a = b ∧ s = t := by
  have first : ∀ {s} (r : List Char), DigitFirst s → s ≠ '-' :: r := by
    rintro s r ⟨c, r', rfl, digit⟩ cons
    obtain ⟨rfl, -⟩ := List.cons.inj cons
    exact absurd digit (by decide)
  cases a <;> cases b
  · exact ⟨rfl, h⟩
  · exact absurd h (first t hs)
  · exact absurd h.symm (first s ht)
  · exact ⟨rfl, (List.cons.inj h).2⟩

variable {x y : Finite}

lemma Format.Covers.pos {f : Format} {v : ℚ} (h : f.Covers x v) (positive : 0 < x.mantissa) :
    0 < v := by
  have low : 0 < (f.interval x).1 := by
    simp only [Format.interval]
    split_ifs <;> omega
  have unit := x.quarter_pos
  have low' : (0 : ℚ) < (f.interval x).1 := by exact_mod_cast low
  exact lt_of_lt_of_le (mul_pos low' unit) h.le.1

lemma shortest_value_pos_iff (hx : double.Holds x) :
    0 < (double.shortest x).value ↔ 0 < x.mantissa := by
  constructor
  · intro pos
    refine Nat.pos_of_ne_zero fun zero => ?_
    rw [Format.shortest, if_pos zero, Decimal.value] at pos
    norm_num at pos
  · intro positive
    exact (covers_shortest hx positive).pos positive

/-- Doubles of one sign whose shortest decimals have one value are equal. -/
lemma eq_of_shortest_value_eq (hx : double.Holds x) (hy : double.Holds y)
    (sign : x.negative = y.negative)
    (value : (double.shortest x).value = (double.shortest y).value) : x = y := by
  have both : 0 < x.mantissa ↔ 0 < y.mantissa := by
    rw [← shortest_value_pos_iff hx, ← shortest_value_pos_iff hy, value]
  by_cases positive : 0 < x.mantissa
  · have covered := covers_shortest hx positive
    rw [value] at covered
    exact eq_of_covers (by decide) hx hy sign covered (covers_shortest hy (both.1 positive))
  · -- zeros have the least exponent
    have zero : ∀ {z : Finite}, double.Holds z → z.mantissa = 0 → z.exponent = double.least := by
      intro z hz none
      refine le_antisymm (not_lt.1 fun above => ?_) hz.low
      have := hz.normal above
      rw [none] at this
      exact absurd this (by decide)
    have none : x.mantissa = 0 := by omega
    have none' : y.mantissa = 0 := by omega
    have exponents := (zero hx none).trans (zero hy none').symm
    cases x
    cases y
    simp_all

/-- **The text of a double determines it**, the sign of a zero included. -/
theorem jsonText_injective (hx : double.Holds x) (hy : double.Holds y)
    (h : double.jsonText x = double.jsonText y) : x = y := by
  obtain ⟨s, text, spelled⟩ := double.jsonText_eq x
  obtain ⟨t, text', spelled'⟩ := double.jsonText_eq y
  rw [h, text'] at text
  obtain ⟨sign, rfl⟩ := spelled'.head.split_sign spelled.head text
  exact eq_of_shortest_value_eq hx hy sign.symm (spelled.value_unique spelled')

end ApiCanon.Binary
