import ApiCanon.Text.Bytes
import Mathlib.Tactic.Lemma
import Mathlib.Tactic.SplitIfs

/-!
# Texts as bytes

The reader of UTF-8 undoes the writing of texts (`Bytes.decode_ofString`), so that the bytes of a
text determine it (`Bytes.ofString_injective`).  The argument goes character by character: each of
the four forms of a character is recognised by its first byte, and its bits are put together again.
-/

namespace ApiCanon

/-! ## Numbers of bytes -/

lemma utf8Length_cons (c : Char) (s : List Char) :
    utf8Length (c :: s) = c.utf8Size + utf8Length s := by
  have shift (n : Nat) : s.foldl (fun n c => n + c.utf8Size) n = n + utf8Length s := by
    induction s generalizing n with
    | nil => rfl
    | cons d s ih => rw [utf8Length, List.foldl_cons, List.foldl_cons, ih, ih (0 + _)]; omega
  rw [utf8Length, List.foldl_cons, shift, Nat.zero_add]

lemma utf8Length_append (s t : List Char) : utf8Length (s ++ t) = utf8Length s + utf8Length t := by
  induction s with
  | nil => exact (Nat.zero_add _).symm
  | cons c s ih => rw [List.cons_append, utf8Length_cons, utf8Length_cons, ih, Nat.add_assoc]

namespace Bytes

/-! ## Lists of bytes -/

lemma toList_loop (b : ByteArray) (i : Nat) (r : List UInt8) :
    ByteArray.toList.loop b i r = r.reverse ++ b.data.toList.drop i := by
  fun_induction ByteArray.toList.loop b i r with
  | case1 i r h ih =>
    have hi : i < b.data.toList.length := by simpa using h
    rw [ih, List.reverse_cons, List.append_assoc, List.drop_eq_getElem_cons hi]
    simp [ByteArray.get!, h]
  | case2 i r h =>
    have hi : b.data.toList.length ≤ i := by simpa using h
    rw [List.drop_eq_nil_of_le hi, List.append_nil]

/-- The bytes of a text are those of its characters. -/
lemma ofString_eq_flatMap (s : String) :
    ofString s = s.toList.flatMap String.utf8EncodeChar := by
  have toList : ∀ b : ByteArray, b.toList = b.data.toList := fun b => by
    simp [ByteArray.toList, toList_loop]
  rw [ofString, toList, String.toUTF8_eq_toByteArray, ← String.utf8Encode_toList]
  exact List.toList_data_toByteArray

/-! ## Bytes of a character

The bits in front of the payload tell how many bytes a character has and which of them this is. -/

lemma continuation_ofNat {m : Nat} (h : m < 64) :
    isContinuation (UInt8.ofNat (m + 0x80)) = true ∧ payload (UInt8.ofNat (m + 0x80)) = m := by
  revert m
  decide

lemma ascii_ofNat {v : Nat} (h : v < 0x80) :
    UInt8.ofNat v < 0x80 ∧ (UInt8.ofNat v).toNat = v := by
  revert v
  decide

lemma lead_two_ofNat {q : Nat} (high : q < 32) (low : 2 ≤ q) :
    ¬UInt8.ofNat (q + 0xC0) < 0x80 ∧
      (0xC2 ≤ UInt8.ofNat (q + 0xC0) && UInt8.ofNat (q + 0xC0) ≤ 0xDF) = true ∧
        (UInt8.ofNat (q + 0xC0) &&& 0x1F).toNat = q := by
  revert q
  decide

lemma lead_three_ofNat {q : Nat} (high : q < 16) :
    ¬UInt8.ofNat (q + 0xE0) < 0x80 ∧
      (0xC2 ≤ UInt8.ofNat (q + 0xE0) && UInt8.ofNat (q + 0xE0) ≤ 0xDF) = false ∧
        (0xE0 ≤ UInt8.ofNat (q + 0xE0) && UInt8.ofNat (q + 0xE0) ≤ 0xEF) = true ∧
          (UInt8.ofNat (q + 0xE0) &&& 0x0F).toNat = q := by
  revert q
  decide

lemma lead_four_ofNat {q : Nat} (high : q < 5) :
    ¬UInt8.ofNat (q + 0xF0) < 0x80 ∧
      (0xC2 ≤ UInt8.ofNat (q + 0xF0) && UInt8.ofNat (q + 0xF0) ≤ 0xDF) = false ∧
        (0xE0 ≤ UInt8.ofNat (q + 0xF0) && UInt8.ofNat (q + 0xF0) ≤ 0xEF) = false ∧
          (0xF0 ≤ UInt8.ofNat (q + 0xF0) && UInt8.ofNat (q + 0xF0) ≤ 0xF4) = true ∧
            (UInt8.ofNat (q + 0xF0) &&& 0x07).toNat = q := by
  revert q
  decide

/-- No form of three bytes is overlong or a surrogate. -/
lemma secondFits_three {q : Nat} (hq : q < 16) {m : Nat} (hm : m < 64) (long : q = 0 → 32 ≤ m)
    (scalar : q = 13 → m < 32) :
    secondFits (UInt8.ofNat (q + 0xE0)) (UInt8.ofNat (m + 0x80)) = true := by
  revert m q
  decide +kernel

/-- No form of four bytes is overlong or above the last code point. -/
lemma secondFits_four {q : Nat} (hq : q < 5) {m : Nat} (hm : m < 64) (long : q = 0 → 16 ≤ m)
    (last : q = 4 → m < 16) :
    secondFits (UInt8.ofNat (q + 0xF0)) (UInt8.ofNat (m + 0x80)) = true := by
  revert m q
  decide +kernel

/-! ## Reading -/

/-- A character in front is read as it was written. -/
lemma decodeFrom_utf8EncodeChar (c : Char) (rest : Bytes) (index : Nat) :
    ∃ next, decodeFrom index (String.utf8EncodeChar c ++ rest) =
      (decodeFrom next rest).map (c :: ·) := by
  have scalar : c.toNat < 0xD800 ∨ 0xDFFF < c.toNat ∧ c.toNat < 0x110000 := c.valid
  have back : Char.ofNat c.toNat = c := Char.ofNat_toNat c
  have val : c.val.toNat = c.toNat := rfl
  unfold String.utf8EncodeChar
  rw [val]
  generalize c.toNat = v at scalar back
  dsimp only
  split_ifs with h1 h2 h3
  · refine ⟨index + 1, ?_⟩
    obtain ⟨small, value⟩ := ascii_ofNat (v := v) (by omega)
    rw [List.singleton_append, decodeFrom.eq_def]
    dsimp only
    rw [if_pos small, value, back]
  · refine ⟨index + 2, ?_⟩
    obtain ⟨big, lead, value⟩ := lead_two_ofNat (q := v / 64 % 32) (by omega) (by omega)
    obtain ⟨more, low⟩ := continuation_ofNat (m := v % 64) (by omega)
    have whole : v / 64 % 32 * 64 + v % 64 = v := by omega
    simp only [List.cons_append, List.nil_append]
    rw [decodeFrom.eq_def]
    dsimp only
    rw [if_neg big, if_pos lead]
    simp only [more, if_true, value, low, whole, back]
  · refine ⟨index + 3, ?_⟩
    obtain ⟨big, two, lead, value⟩ := lead_three_ofNat (q := v / 4096 % 16) (by omega)
    obtain ⟨-, middle⟩ := continuation_ofNat (m := v / 64 % 64) (by omega)
    obtain ⟨more, low⟩ := continuation_ofNat (m := v % 64) (by omega)
    have second := secondFits_three (q := v / 4096 % 16) (m := v / 64 % 64) (by omega) (by omega)
      (by omega) (by omega)
    have whole : (v / 4096 % 16 * 64 + v / 64 % 64) * 64 + v % 64 = v := by omega
    simp only [List.cons_append, List.nil_append]
    rw [decodeFrom.eq_def]
    dsimp only
    rw [if_neg big, two, if_neg Bool.false_ne_true, if_pos lead]
    simp only [second, more, Bool.not_true, Bool.false_eq_true, if_false, if_true, value, middle,
      low, whole, back]
  · refine ⟨index + 4, ?_⟩
    obtain ⟨big, two, three, lead, value⟩ := lead_four_ofNat (q := v / 262144 % 8) (by omega)
    obtain ⟨-, high⟩ := continuation_ofNat (m := v / 4096 % 64) (by omega)
    obtain ⟨more', middle⟩ := continuation_ofNat (m := v / 64 % 64) (by omega)
    obtain ⟨more, low⟩ := continuation_ofNat (m := v % 64) (by omega)
    have second := secondFits_four (q := v / 262144 % 8) (m := v / 4096 % 64) (by omega) (by omega)
      (by omega) (by omega)
    have whole : ((v / 262144 % 8 * 64 + v / 4096 % 64) * 64 + v / 64 % 64) * 64 + v % 64 = v := by
      omega
    simp only [List.cons_append, List.nil_append]
    rw [decodeFrom.eq_def]
    dsimp only
    rw [if_neg big, two, if_neg Bool.false_ne_true, three, if_neg Bool.false_ne_true,
      if_pos lead]
    simp only [second, more, more', Bool.not_true, Bool.false_eq_true, if_false, if_true, value,
      high, middle, low, whole, back]

lemma decodeFrom_flatMap (s : List Char) (index : Nat) :
    decodeFrom index (s.flatMap String.utf8EncodeChar) = .ok s := by
  induction s generalizing index with
  | nil => rfl
  | cons c r ih =>
    rw [List.flatMap_cons]
    obtain ⟨next, h⟩ := decodeFrom_utf8EncodeChar c (r.flatMap String.utf8EncodeChar) index
    rw [h, ih]
    rfl

/-- **A text is read back from its bytes.** -/
theorem decode_ofString (s : String) : decode (ofString s) = .ok s.toList := by
  rw [ofString_eq_flatMap]
  exact decodeFrom_flatMap s.toList 0

theorem ofString_injective : Function.Injective ofString := by
  intro s t h
  have chars : (.ok s.toList : Except Utf8Fault (List Char)) = .ok t.toList := by
    rw [← decode_ofString s, ← decode_ofString t, h]
  exact String.toList_injective (Except.ok.inj chars)

end Bytes

end ApiCanon
