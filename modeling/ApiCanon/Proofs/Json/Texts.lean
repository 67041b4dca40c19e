import ApiCanon.Proofs.Binary.Layout
import ApiCanon.Proofs.Json.RoundTrip

/-!
# The text of a document

A text without blanks is the text of one document at most (`eq_of_compact_eq`).  This holds whether
or not the reader finds the document again: the text of a double determines it, although the reader
does not always find the nearest double.  All that is asked of a document is that its fractions are
doubles.

The text of a value can be told from what follows it in a list or an object, since that begins with
a comma or a bracket (`compactChars_append_inj`).
-/

namespace ApiCanon.Json

open Binary (DigitFirst isNumeral signChars)

/-! ## Numbers -/

namespace Number

/-- A fraction is a double. -/
def Double : Number → Prop
  | int _ => True
  | float x => Binary.double.Holds x

instance (n : Number) : Decidable n.Double := by
  cases n with
  | int => exact inferInstanceAs (Decidable True)
  | float x => exact inferInstanceAs (Decidable (Binary.double.Holds x))

lemma text_int (i : Int) :
    (int i).text.toList = signChars (decide (i < 0)) ++ Nat.toDigits 10 i.natAbs := by
  cases i with
  | ofNat n => exact Nat.toList_repr
  | negSucc n =>
    have sign : signChars (decide (Int.negSucc n < 0)) = ['-'] := by
      simp [signChars, Int.negSucc_lt_zero]
    show (toString (Int.negSucc n)).toList = _
    rw [Int.toString_eq_repr, Int.repr, String.toList_append, Nat.toList_repr, sign]
    rfl

lemma digitFirst_toDigits (n : Nat) : DigitFirst (Nat.toDigits 10 n) := by
  have first := (Binary.allDigits_toDigits n).digitFirst_append (Binary.toDigits_ne_nil n) []
  rwa [List.append_nil] at first

lemma mem_signChars {c : Char} {negative : Bool} (h : c ∈ signChars negative) : c = '-' := by
  cases negative with
  | false => cases h
  | true => exact List.mem_singleton.1 h

lemma isNumeral_text {n : Number} : ∀ c ∈ n.text.toList, isNumeral c = true := by
  have sign : ∀ {negative : Bool}, ∀ c ∈ signChars negative, isNumeral c = true := by
    intro negative c hc
    rw [mem_signChars hc]
    rfl
  intro c hc
  cases n with
  | int i =>
    rw [text_int] at hc
    exact (List.mem_append.1 hc).elim (sign c) ((Binary.allDigits_toDigits _).numeral c)
  | float x =>
    obtain ⟨s, text, spelled⟩ := Binary.double.jsonText_eq x
    rw [Number.text, text] at hc
    exact (List.mem_append.1 hc).elim (sign c) (spelled.numeral c)

/-- Only a fraction is written with a point or an exponent. -/
lemma text_int_ne_text_float (i : Int) (x : Binary.Finite) : (int i).text ≠ (float x).text := by
  intro same
  obtain ⟨s, text, spelled⟩ := Binary.double.jsonText_eq x
  have plain : ∀ c ∈ (int i).text.toList, c ≠ '.' ∧ c ≠ 'e' := by
    intro c hc
    rw [text_int] at hc
    rcases List.mem_append.1 hc with hc | hc
    · rw [mem_signChars hc]
      decide
    · have digit := Binary.allDigits_toDigits _ c hc
      exact ⟨ne_of_isDigit digit (by decide), ne_of_isDigit digit (by decide)⟩
  rw [same, Number.text, text] at plain
  rcases spelled.marked with point | exponent
  · exact (plain _ (List.mem_append_right _ point)).1 rfl
  · exact (plain _ (List.mem_append_right _ exponent)).2 rfl

lemma text_injective {m n : Number} (hm : m.Double) (hn : n.Double) (h : m.text = n.text) :
    m = n := by
  cases m with
  | int i =>
    cases n with
    | int j =>
      have chars := congrArg String.toList h
      rw [text_int, text_int] at chars
      obtain ⟨sign, digits⟩ := (digitFirst_toDigits _).split_sign (digitFirst_toDigits _) chars
      have sign : i < 0 ↔ j < 0 := by simpa using sign
      have size := congrArg Binary.Decimal.natOfDigits digits
      rw [Binary.natOfDigits_toDigits, Binary.natOfDigits_toDigits] at size
      congr 1
      omega
    | float y => exact absurd h (text_int_ne_text_float i y)
  | float x =>
    cases n with
    | int j => exact absurd h.symm (text_int_ne_text_float j x)
    | float y => exact congrArg float (Binary.jsonText_injective hm hn h)

end Number

namespace Value

/-- All fractions of a value are doubles. -/
inductive Doubles : Value → Prop where
  | null : Doubles .null
  | bool (b : Bool) : Doubles (.bool b)
  | number {n : Number} (double : n.Double) : Doubles (.number n)
  | string (s : String) : Doubles (.string s)
  | array {a : List Value} (items : ∀ v ∈ a, Doubles v) : Doubles (.array a)
  | object {f : Fields} (values : ∀ p ∈ f, Doubles p.2) : Doubles (.object f)

lemma Doubles.double {n : Number} (h : Doubles (.number n)) : n.Double := by
  cases h with
  | number double => exact double

lemma Doubles.item {a : List Value} (h : Doubles (.array a)) : ∀ v ∈ a, Doubles v := by
  cases h with
  | array items => exact items

lemma Doubles.value {f : Fields} (h : Doubles (.object f)) : ∀ p ∈ f, Doubles p.2 := by
  cases h with
  | object values => exact values

@[simp] lemma doubles_null : Doubles .null := .null

@[simp] lemma doubles_bool (b : Bool) : Doubles (.bool b) := .bool b

@[simp] lemma doubles_string (s : String) : Doubles (.string s) := .string s

@[simp] lemma doubles_number (n : Number) : Doubles (.number n) ↔ n.Double :=
  ⟨Doubles.double, .number⟩

@[simp] lemma doubles_array (a : List Value) : Doubles (.array a) ↔ ∀ v ∈ a, Doubles v :=
  ⟨Doubles.item, .array⟩

@[simp] lemma doubles_object (f : Fields) : Doubles (.object f) ↔ ∀ p ∈ f, Doubles p.2 :=
  ⟨Doubles.value, .object⟩

end Value

/-! ## Where a text ends -/

/-- A numeral ends where a value does. -/
lemma numeral_append_inj {s t r r' : List Char} (hs : ∀ c ∈ s, isNumeral c = true)
    (ht : ∀ c ∈ t, isNumeral c = true) (hr : Delimited r) (hr' : Delimited r')
    (h : s ++ r = t ++ r') : s = t ∧ r = r' := by
  have ends : ∀ {r : List Char} {c : Char} {k : List Char}, Delimited r → r = c :: k →
      isNumeral c = false := by
    intro r c k hr cons
    rcases hr c k cons with rfl | rfl | rfl <;> decide
  induction s generalizing t with
  | nil =>
    cases t with
    | nil => exact ⟨rfl, h⟩
    | cons c t =>
      have := ht c List.mem_cons_self
      rw [ends hr h] at this
      cases this
  | cons c s ih =>
    cases t with
    | nil =>
      have := hs c List.mem_cons_self
      rw [ends hr' h.symm] at this
      cases this
    | cons d t =>
      obtain ⟨rfl, rest⟩ := List.cons.inj h
      obtain ⟨rfl, tail⟩ := ih (fun e he => hs e (List.mem_cons_of_mem c he))
        (fun e he => ht e (List.mem_cons_of_mem c he)) rest
      exact ⟨rfl, tail⟩

/-- A text in quotes ends with its second quote. -/
lemma quoteChars_append_inj {s t : String} {r r' : List Char}
    (h : quoteChars s.toList ++ r = quoteChars t.toList ++ r') : s = t ∧ r = r' := by
  have unfold_quotes : ∀ (s r : List Char),
      quoteChars s ++ r = '"' :: (s.flatMap escapeChar ++ '"' :: r) := by
    intro s r
    simp [quoteChars]
  rw [unfold_quotes, unfold_quotes] at h
  have read := congrArg readText (List.cons.inj h).2
  rw [readText_flatMap, readText_flatMap] at read
  obtain ⟨chars, rest⟩ := Prod.mk.inj (Except.ok.inj read)
  exact ⟨String.toList_injective chars, rest⟩

/-- The text of a value can be told from what follows it. -/
def Separate (v : Value) : Prop :=
  ∀ {w : Value} {r r' : List Char}, w.Doubles → Delimited r → Delimited r' →
    compactChars v ++ r = compactChars w ++ r' → v = w ∧ r = r'

/-- What kind of value begins with a character. -/
def kindOfFirst (c : Char) : Nat :=
  if c = 'n' then 0
  else if c = 't' ∨ c = 'f' then 1
  else if c.isDigit ∨ c = '-' then 2
  else if c = '"' then 3
  else if c = '[' then 4
  else if c = '\x7b' then 5
  else 6

/-- The kinds of values, by number. -/
def Value.kind : Value → Nat
  | .null => 0
  | .bool _ => 1
  | .number _ => 2
  | .string _ => 3
  | .array _ => 4
  | .object _ => 5

lemma Number.text_first (n : Number) :
    ∃ c r, n.text.toList = c :: r ∧ kindOfFirst c = 2 := by
  have signed : ∀ {negative : Bool} {s : List Char}, DigitFirst s →
      ∃ c r, signChars negative ++ s = c :: r ∧ kindOfFirst c = 2 := by
    rintro negative s ⟨c, r, rfl, digit⟩
    cases negative with
    | false =>
      have other := fun d => ne_of_isDigit (d := d) digit
      refine ⟨c, r, rfl, ?_⟩
      simp [kindOfFirst, digit, other 'n' (by decide), other 't' (by decide),
        other 'f' (by decide)]
    | true => exact ⟨'-', c :: r, rfl, by decide⟩
  cases n with
  | int i =>
    rw [text_int]
    exact signed (digitFirst_toDigits _)
  | float x =>
    obtain ⟨s, text, spelled⟩ := Binary.double.jsonText_eq x
    rw [Number.text, text]
    exact signed spelled.head

/-- The first character of a text tells the kind of the value. -/
lemma compactChars_first (v : Value) :
    ∃ c r, compactChars v = c :: r ∧ kindOfFirst c = v.kind := by
  cases v with
  | null => exact ⟨'n', _, rfl, rfl⟩
  | bool b =>
    cases b with
    | false => exact ⟨'f', _, rfl, rfl⟩
    | true => exact ⟨'t', _, rfl, rfl⟩
  | number n => exact n.text_first
  | string s => exact ⟨'"', _, rfl, rfl⟩
  | array a => exact ⟨'[', _, rfl, rfl⟩
  | object f => exact ⟨'\x7b', _, rfl, rfl⟩

lemma kind_eq_of_compactChars_append_eq {v w : Value} {r r' : List Char}
    (h : compactChars v ++ r = compactChars w ++ r') : v.kind = w.kind := by
  obtain ⟨c, s, text, first⟩ := compactChars_first v
  obtain ⟨d, t, text', first'⟩ := compactChars_first w
  rw [text, text'] at h
  obtain ⟨rfl, -⟩ := List.cons.inj h
  exact first.symm.trans first'

/-! ## Lists and objects -/

section Parts

variable {α : Type} {enc : α → List Char} {close : Char} {a b : List α} {r r' : List Char}

/-- Parts with commas between them. -/
def parts (enc : α → List Char) : List α → List Char
  | [] => []
  | x :: a => enc x ++ a.flatMap fun y => ',' :: enc y

/-- The texts of the parts of two lists can be told from what follows them. -/
def SeparateParts (enc : α → List Char) (a b : List α) : Prop :=
  ∀ x ∈ a, ∀ y ∈ b, ∀ {r r' : List Char}, Delimited r → Delimited r' →
    enc x ++ r = enc y ++ r' → x = y ∧ r = r'

lemma SeparateParts.tail {x y : α} (h : SeparateParts enc (x :: a) (y :: b)) :
    SeparateParts enc a b :=
  fun u hu v hv => h u (List.mem_cons_of_mem x hu) v (List.mem_cons_of_mem y hv)

lemma delimited_tail (closing : ∀ r, Delimited (close :: r)) (a : List α) (r : List Char) :
    Delimited ((a.flatMap fun x => ',' :: enc x) ++ close :: r) := by
  cases a with
  | nil => exact closing r
  | cons x a => exact delimited_comma _

lemma tail_append_inj (closing : ∀ r, Delimited (close :: r)) (other : close ≠ ',')
    (separate : SeparateParts enc a b)
    (h : (a.flatMap fun x => ',' :: enc x) ++ close :: r =
      (b.flatMap fun x => ',' :: enc x) ++ close :: r') : a = b ∧ r = r' := by
  induction a generalizing b with
  | nil =>
    cases b with
    | nil => exact ⟨rfl, (List.cons.inj h).2⟩
    | cons y b => exact absurd (List.cons.inj h).1 other
  | cons x a ih =>
    cases b with
    | nil => exact absurd (List.cons.inj h).1.symm other
    | cons y b =>
      rw [List.flatMap_cons, List.flatMap_cons, List.append_assoc, List.append_assoc] at h
      obtain ⟨rfl, rest⟩ := separate x List.mem_cons_self y List.mem_cons_self
        (delimited_tail closing a r) (delimited_tail closing b r') (List.cons.inj h).2
      obtain ⟨rfl, last⟩ := ih separate.tail rest
      exact ⟨rfl, last⟩

/-- Parts with commas between them can be told from what follows their closing bracket, with which
no part begins. -/
lemma parts_append_inj (closing : ∀ r, Delimited (close :: r)) (other : close ≠ ',')
    (opening : ∀ x r r', close :: r ≠ enc x ++ r') (separate : SeparateParts enc a b)
    (h : parts enc a ++ close :: r = parts enc b ++ close :: r') : a = b ∧ r = r' := by
  cases a with
  | nil =>
    cases b with
    | nil => exact ⟨rfl, (List.cons.inj h).2⟩
    | cons y b =>
      rw [parts, parts, List.append_assoc] at h
      exact absurd h (opening y _ _)
  | cons x a =>
    cases b with
    | nil =>
      rw [parts, parts, List.append_assoc] at h
      exact absurd h.symm (opening x _ _)
    | cons y b =>
      rw [parts, parts, List.append_assoc, List.append_assoc] at h
      obtain ⟨rfl, rest⟩ := separate x List.mem_cons_self y List.mem_cons_self
        (delimited_tail closing a r) (delimited_tail closing b r') h
      obtain ⟨rfl, last⟩ := tail_append_inj closing other separate.tail rest
      exact ⟨rfl, last⟩

/-- The commas stand between the parts. -/
lemma length_parts (a : List α) :
    (parts enc a).length = (a.map fun x => (enc x).length).sum + (a.length - 1) := by
  cases a with
  | nil => rfl
  | cons x a =>
    have commas : (a.flatMap fun y => ',' :: enc y).length =
        (a.map fun y => (enc y).length).sum + a.length := by
      induction a with
      | nil => rfl
      | cons y a ih =>
        rw [List.flatMap_cons, List.length_append, ih, List.map_cons, List.sum_cons,
          List.length_cons, List.length_cons]
        omega
    rw [parts, List.length_append, commas, List.map_cons, List.sum_cons, List.length_cons,
      Nat.add_sub_cancel, Nat.add_assoc]

end Parts

lemma compactItems_eq_parts (a : List Value) : compactItems a = parts compactChars a := by
  cases a with
  | nil => rfl
  | cons v a => exact compactItems_cons v a

lemma compactFields_eq_parts (f : Fields) : compactFields f = parts compactField f := by
  cases f with
  | nil => rfl
  | cons p f => exact compactFields_cons p f

lemma compactItems_append_inj {a b : List Value} (separate : ∀ v ∈ a, Separate v)
    (hb : ∀ w ∈ b, w.Doubles) {r r' : List Char}
    (h : compactItems a ++ ']' :: r = compactItems b ++ ']' :: r') : a = b ∧ r = r' := by
  have opening : ∀ (v : Value) (r r' : List Char), ']' :: r ≠ compactChars v ++ r' := by
    intro v r r' same
    obtain ⟨c, s, text, first⟩ := compactChars_first v
    rw [text] at same
    obtain ⟨rfl, -⟩ := List.cons.inj same
    cases v <;> exact absurd first (by simp [Value.kind, kindOfFirst])
  rw [compactItems_eq_parts, compactItems_eq_parts] at h
  exact parts_append_inj delimited_bracket (by decide) opening
    (fun v hv w hw r r' hr hr' same => separate v hv (hb w hw) hr hr' same) h

lemma compactFields_append_inj {f g : Fields} (separate : ∀ p ∈ f, Separate p.2)
    (hg : ∀ q ∈ g, q.2.Doubles) {r r' : List Char}
    (h : compactFields f ++ '\x7d' :: r = compactFields g ++ '\x7d' :: r') : f = g ∧ r = r' := by
  have opening : ∀ (p : String × Value) (r r' : List Char), '\x7d' :: r ≠ compactField p ++ r' := by
    intro p r r' same
    exact absurd (List.cons.inj same).1 (by decide)
  have field : SeparateParts compactField f g := by
    rintro ⟨k, v⟩ hp ⟨l, w⟩ hq r r' hr hr' same
    simp only [compactField, List.append_assoc, List.cons_append] at same
    obtain ⟨rfl, value⟩ := quoteChars_append_inj same
    obtain ⟨rfl, rest⟩ := separate (k, v) hp (hg (k, w) hq) hr hr' (List.cons.inj value).2
    exact ⟨rfl, rest⟩
  rw [compactFields_eq_parts, compactFields_eq_parts] at h
  exact parts_append_inj delimited_brace (by decide) opening field h

/-! ## Texts of documents -/

/-- The text of a value can be told from what follows it in a list or an object. -/
theorem compactChars_append_inj {v : Value} (hv : v.Doubles) : Separate v := by
  induction v using Value.induction with
  | null =>
    intro w r r' _ _ _ h
    have kind := kind_eq_of_compactChars_append_eq h
    cases w with
    | null => exact ⟨rfl, List.append_cancel_left h⟩
    | _ => cases kind
  | bool b =>
    intro w r r' _ _ _ h
    have kind := kind_eq_of_compactChars_append_eq h
    cases w with
    | bool c =>
      cases b <;> cases c
      · exact ⟨rfl, List.append_cancel_left h⟩
      · exact absurd (List.cons.inj h).1 (by decide)
      · exact absurd (List.cons.inj h).1 (by decide)
      · exact ⟨rfl, List.append_cancel_left h⟩
    | _ => cases kind
  | number n =>
    intro w r r' hw hr hr' h
    have kind := kind_eq_of_compactChars_append_eq h
    cases w with
    | number m =>
      obtain ⟨text, rest⟩ :=
        numeral_append_inj Number.isNumeral_text Number.isNumeral_text hr hr' h
      have same := Number.text_injective hv.double hw.double (String.toList_injective text)
      exact ⟨congrArg Value.number same, rest⟩
    | _ => cases kind
  | string s =>
    intro w r r' _ _ _ h
    have kind := kind_eq_of_compactChars_append_eq h
    cases w with
    | string t =>
      obtain ⟨rfl, rest⟩ := quoteChars_append_inj h
      exact ⟨rfl, rest⟩
    | _ => cases kind
  | array a ih =>
    intro w r r' hw _ _ h
    have kind := kind_eq_of_compactChars_append_eq h
    cases w with
    | array b =>
      simp only [compactChars, List.cons_append, List.append_assoc, List.nil_append] at h
      obtain ⟨rfl, rest⟩ := compactItems_append_inj (fun v mem => ih v mem (hv.item v mem))
        hw.item (List.cons.inj h).2
      exact ⟨rfl, rest⟩
    | _ => cases kind
  | object f ih =>
    intro w r r' hw _ _ h
    have kind := kind_eq_of_compactChars_append_eq h
    cases w with
    | object g =>
      simp only [compactChars, List.cons_append, List.append_assoc, List.nil_append] at h
      obtain ⟨rfl, rest⟩ := compactFields_append_inj (fun p mem => ih p mem (hv.value p mem))
        hw.value (List.cons.inj h).2
      exact ⟨rfl, rest⟩
    | _ => cases kind

/-- **A text is the text of one document at most.** -/
theorem eq_of_compact_eq {v w : Value} (hv : v.Doubles) (hw : w.Doubles)
    (h : v.compact = w.compact) : v = w := by
  have chars : compactChars v = compactChars w := String.ofList_injective h
  exact (compactChars_append_inj hv hw delimited_nil delimited_nil
    (congrArg (· ++ []) chars)).1

end ApiCanon.Json
