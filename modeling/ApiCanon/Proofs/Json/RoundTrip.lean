import ApiCanon.Proofs.Json.Numerals
import ApiCanon.Proofs.Json.Reading

/-!
# Documents are read back

The text of a value without blanks is read as the value (`read_compact`), given that no object
has two fields of one name, that the numbers read back, and that the brackets are not too deep.
Of the last condition the first direction of the bounds is independent: whatever is read from such
a text, within whatever bounds, is the value (`eq_of_read_compact`).  And the condition is needed:
in whatever is read, fewer brackets are open at once than the limit says (`height_of_read`).

Since reading undoes writing, the text determines the value (`compact_injective`).
-/

namespace ApiCanon.Json

/-! ## Texts in quotes -/

lemma hexCode?_control {n : Nat} (h : n < 32) :
    hexCode? '0' '0' (Bytes.hexDigit (n / 16)) (Bytes.hexDigit (n % 16)) = some n := by
  revert n
  decide

/-- A character is read back from its escaped form. -/
lemma readText_escapeChar (c : Char) (rest : List Char) :
    readText (escapeChar c ++ rest) = consText c (readText rest) := by
  unfold escapeChar
  simp only [beq_iff_eq]
  split_ifs with quote backslash newline carriage tab backspace feed control
  · subst quote
    rfl
  · subst backslash
    rfl
  · subst newline
    rfl
  · subst carriage
    rfl
  · subst tab
    rfl
  · have : c = '\x08' := by rw [← Char.ofNat_toNat c, backspace]
    subst this
    rfl
  · have : c = '\x0c' := by rw [← Char.ofNat_toNat c, feed]
    subst this
    rfl
  · simp only [List.cons_append, List.nil_append]
    rw [readText, hexCode?_control control]
    have low : ¬(0xDC00 ≤ c.toNat ∧ c.toNat ≤ 0xDFFF) := by omega
    have plain : c.toNat < 0xD800 ∨ 0xDBFF < c.toNat := by omega
    simp only [if_neg low, if_pos plain, Char.ofNat_toNat]
  · rw [List.singleton_append, readText.eq_def]
    split <;> simp_all

/-- A text is read back from its form in quotes. -/
lemma readText_flatMap (s rest : List Char) :
    readText (s.flatMap escapeChar ++ '"' :: rest) = .ok (s, rest) := by
  induction s with
  | nil => rfl
  | cons c s ih =>
    rw [List.flatMap_cons, List.append_assoc, readText_escapeChar, ih]
    rfl

/-! ## Readable values -/

namespace Value

/-- All numbers of a value read back. -/
inductive Exact : Value → Prop where
  | null : Exact .null
  | bool (b : Bool) : Exact (.bool b)
  | number {n : Number} (back : n.ReadsBack) : Exact (.number n)
  | string (s : String) : Exact (.string s)
  | array {a : List Value} (items : ∀ v ∈ a, Exact v) : Exact (.array a)
  | object {f : Fields} (values : ∀ p ∈ f, Exact p.2) : Exact (.object f)

lemma Exact.item {a : List Value} (h : Exact (.array a)) : ∀ v ∈ a, Exact v := by
  cases h with
  | array items => exact items

lemma Exact.value {f : Fields} (h : Exact (.object f)) : ∀ p ∈ f, Exact p.2 := by
  cases h with
  | object values => exact values

@[simp] lemma exact_string (s : String) : Exact (.string s) := .string s

@[simp] lemma exact_bool (b : Bool) : Exact (.bool b) := .bool b

@[simp] lemma exact_null : Exact .null := .null

@[simp] lemma exact_array (a : List Value) : Exact (.array a) ↔ ∀ v ∈ a, Exact v :=
  ⟨Exact.item, .array⟩

@[simp] lemma exact_object (f : Fields) : Exact (.object f) ↔ ∀ p ∈ f, Exact p.2 :=
  ⟨Exact.value, .object⟩

mutual
/-- The number of brackets inside of one another. -/
def height : Value → Nat
  | .array a => heightOfItems a + 1
  | .object f => heightOfFields f + 1
  | _ => 0

def heightOfItems : List Value → Nat
  | [] => 0
  | v :: r => max v.height (heightOfItems r)

def heightOfFields : List (String × Value) → Nat
  | [] => 0
  | (_, v) :: r => max v.height (heightOfFields r)
end

lemma heightOfItems_le_iff {a : List Value} {n : Nat} :
    heightOfItems a ≤ n ↔ ∀ v ∈ a, v.height ≤ n := by
  induction a with
  | nil => simp [heightOfItems]
  | cons v a ih => rw [heightOfItems, Nat.max_le, ih, List.forall_mem_cons]

lemma heightOfFields_le_iff {f : Fields} {n : Nat} :
    heightOfFields f ≤ n ↔ ∀ p ∈ f, p.2.height ≤ n := by
  induction f with
  | nil => simp [heightOfFields]
  | cons p f ih => rw [heightOfFields, Nat.max_le, ih, List.forall_mem_cons]

end Value

/-! ## Lists and objects -/

/-- The text of the items after the first, each behind its comma. -/
def tailItems (a : List Value) : List Char := a.flatMap fun v => ',' :: compactChars v

/-- The text of a field. -/
def compactField (p : String × Value) : List Char :=
  quoteChars p.1.toList ++ ':' :: compactChars p.2

/-- The text of the fields after the first, each behind its comma. -/
def tailFields (f : Fields) : List Char := f.flatMap fun p => ',' :: compactField p

lemma compactItems_cons (v : Value) (a : List Value) :
    compactItems (v :: a) = compactChars v ++ tailItems a := by
  induction a generalizing v with
  | nil => simp [compactItems, tailItems]
  | cons w a ih =>
    rw [compactItems, ih w]
    · simp [tailItems]
    · simp

lemma compactFields_cons (p : String × Value) (f : Fields) :
    compactFields (p :: f) = compactField p ++ tailFields f := by
  induction f generalizing p with
  | nil => simp [compactFields, tailFields, compactField]
  | cons q f ih =>
    rw [compactFields, ih q]
    · simp [tailFields, compactField]
    · simp

lemma skipBlanks_idem (s : List Char) : skipBlanks (skipBlanks s) = skipBlanks s := by
  induction s with
  | nil => rfl
  | cons c r ih =>
    unfold skipBlanks at ih ⊢
    rw [List.dropWhile_cons]
    split_ifs with blank
    · exact ih
    · rw [List.dropWhile_cons, if_neg blank]

/-- Blanks in front of a value do not matter. -/
lemma readValue_skipBlanks (fuel depth : Nat) (s : List Char) :
    readValue (fuel + 1) depth (skipBlanks s) = readValue (fuel + 1) depth s := by
  rw [readValue, readValue, skipBlanks_idem]

/-- Where a value is read, something stands, and it is not the end of a list. -/
lemma exists_skipBlanks_of_readValue {fuel depth : Nat} {s : List Char} {x : Value × List Char}
    (h : readValue fuel depth s = .ok x) : ∃ c t, skipBlanks s = c :: t ∧ c ≠ ']' := by
  cases fuel with
  | zero =>
    rw [readValue] at h
    cases h
  | succ fuel =>
    cases hs : skipBlanks s with
    | nil =>
      rw [readValue, hs] at h
      cases h
    | cons c t =>
      refine ⟨c, t, rfl, ?_⟩
      rintro rfl
      rw [readValue, hs] at h
      cases h

/-- An item and those after it. -/
lemma readItem_eq {fuel depth : Nat} {s r r' : List Char} {v : Value} {a : List Value}
    (hv : readValue (fuel + 1) depth s = .ok (v, r))
    (ha : readItems (fuel + 1) depth false r = .ok (a, r')) :
    readItem (fuel + 2) depth (skipBlanks s) = .ok (v :: a, r') := by
  rw [readItem, readValue_skipBlanks, hv]
  show (readItems (fuel + 1) depth false r >>= fun x => pure (v :: x.1, x.2)) = _
  rw [ha]
  rfl

/-- The items of a list behind its first bracket. -/
lemma readItems_first {fuel depth : Nat} {s r r' : List Char} {v : Value} {a : List Value}
    (hv : readValue (fuel + 1) depth s = .ok (v, r))
    (ha : readItems (fuel + 1) depth false r = .ok (a, r')) :
    readItems (fuel + 3) depth true s = .ok (v :: a, r') := by
  obtain ⟨c, t, hs, hc⟩ := exists_skipBlanks_of_readValue hv
  have item := readItem_eq hv ha
  rw [hs] at item
  rw [readItems, hs]
  split
  · next heq => cases heq
  · next heq => exact absurd (List.cons.inj heq).1 hc
  · next heq =>
    rw [if_pos rfl, ← heq]
    exact item

/-- The items of a list behind a comma. -/
lemma readItems_comma {fuel depth : Nat} {s r r' : List Char} {v : Value} {a : List Value}
    (hv : readValue (fuel + 1) depth s = .ok (v, r))
    (ha : readItems (fuel + 1) depth false r = .ok (a, r')) :
    readItems (fuel + 3) depth false (',' :: s) = .ok (v :: a, r') := by
  obtain ⟨c, t, hs, hc⟩ := exists_skipBlanks_of_readValue hv
  have item := readItem_eq hv ha
  rw [hs] at item
  have comma : skipBlanks (',' :: s) = ',' :: s := rfl
  rw [readItems, comma]
  split
  · next heq => cases heq
  · next heq => exact absurd (List.cons.inj heq).1 (by decide)
  · next heq =>
    obtain ⟨rfl, rfl⟩ := List.cons.inj heq
    rw [if_neg Bool.false_ne_true, if_pos rfl, hs]
    split
    · next heq => cases heq
    · next heq => exact absurd (List.cons.inj heq).1 hc
    · exact item

/-- A field and those after it. -/
lemma readField_eq {fuel depth : Nat} {s r r' : List Char} {k : String} {v : Value}
    {seen f : Fields} (hv : readValue (fuel + 1) depth s = .ok (v, r))
    (hf : readFields (fuel + 1) depth false (seen.put k v) r = .ok (f, r')) :
    readField (fuel + 2) depth seen (k.toList.flatMap escapeChar ++ '"' :: ':' :: s) =
      .ok (f, r') := by
  have colon : skipBlanks (':' :: s) = ':' :: s := rfl
  rw [readField, readText_flatMap]
  simp only [bind, Except.bind, colon, hv, String.ofList_toList]
  exact hf

/-- The fields of an object behind its first bracket. -/
lemma readFields_first {fuel depth : Nat} {s r r' : List Char} {k : String} {v : Value}
    {f : Fields} (hv : readValue (fuel + 1) depth s = .ok (v, r))
    (hf : readFields (fuel + 1) depth false [(k, v)] r = .ok (f, r')) :
    readFields (fuel + 3) depth true [] (quoteChars k.toList ++ ':' :: s) = .ok (f, r') := by
  have field : readField (fuel + 2) depth [] _ = .ok (f, r') := readField_eq (k := k) hv hf
  have quote : quoteChars k.toList ++ ':' :: s =
      '"' :: (k.toList.flatMap escapeChar ++ '"' :: ':' :: s) := by
    simp [quoteChars]
  have start : ∀ t, skipBlanks ('"' :: t) = '"' :: t := fun _ => rfl
  rw [quote, readFields, start]
  exact field

/-- The fields of an object behind a comma. -/
lemma readFields_comma {fuel depth : Nat} {s r r' : List Char} {k : String} {v : Value}
    {seen f : Fields} (hv : readValue (fuel + 1) depth s = .ok (v, r))
    (hf : readFields (fuel + 1) depth false (seen.put k v) r = .ok (f, r')) :
    readFields (fuel + 3) depth false seen (',' :: (quoteChars k.toList ++ ':' :: s)) =
      .ok (f, r') := by
  have field := readField_eq (k := k) hv hf
  have quote : quoteChars k.toList ++ ':' :: s =
      '"' :: (k.toList.flatMap escapeChar ++ '"' :: ':' :: s) := by
    simp [quoteChars]
  have start : ∀ t, skipBlanks ('"' :: t) = '"' :: t := fun _ => rfl
  have comma : ∀ t, skipBlanks (',' :: t) = ',' :: t := fun _ => rfl
  rw [quote, readFields, comma]
  split
  · next heq => cases heq
  · next heq => exact absurd (List.cons.inj heq).1 (by decide)
  · next heq =>
    obtain ⟨rfl, rfl⟩ := List.cons.inj heq
    rw [if_neg Bool.false_ne_true, if_pos rfl, start]
    exact field

lemma put_of_not_mem {k : String} {f : Fields} (h : k ∉ f.map (·.1)) (v : Value) :
    f.put k v = f ++ [(k, v)] := by
  induction f with
  | nil => rfl
  | cons p f ih =>
    obtain ⟨k', v'⟩ := p
    rw [List.map_cons, List.mem_cons, not_or] at h
    rw [Fields.put, if_neg (Ne.symm h.1), ih h.2, List.cons_append]

/-- What it means that a value is read back from its text, within bounds that are wide enough. -/
def ReadBack (v : Value) : Prop :=
  ∀ fuel depth rest, Delimited rest → 3 * (compactChars v).length ≤ fuel → v.height < depth →
    readValue fuel depth (compactChars v ++ rest) = .ok (v, rest)

lemma compactChars_ne_nil {v : Value} (h : v.Exact) : 0 < (compactChars v).length := by
  cases h with
  | null => decide
  | bool b => cases b <;> decide
  | number back =>
    rename_i n
    cases ht : n.text.toList with
    | nil =>
      rw [Number.ReadsBack, ht, readValue] at back
      cases back
    | cons c t => simp [compactChars, ht]
  | string s => simp [compactChars, quoteChars]
  | array items => simp [compactChars]
  | object values => simp [compactChars]

lemma delimited_tailItems (a : List Value) (rest : List Char) :
    Delimited (tailItems a ++ ']' :: rest) := by
  cases a with
  | nil => exact delimited_bracket rest
  | cons v a => exact delimited_comma _

lemma delimited_tailFields (f : Fields) (rest : List Char) :
    Delimited (tailFields f ++ '\x7d' :: rest) := by
  cases f with
  | nil => exact delimited_brace rest
  | cons p f => exact delimited_comma _

/-- The items after the first. -/
lemma readItems_tailItems {a : List Value} (back : ∀ v ∈ a, ReadBack v)
    (exact : ∀ v ∈ a, v.Exact) {fuel depth : Nat} (rest : List Char)
    (hf : 3 * (tailItems a).length + 1 ≤ fuel) (hd : Value.heightOfItems a < depth) :
    readItems fuel depth false (tailItems a ++ ']' :: rest) = .ok (a, rest) := by
  induction a generalizing fuel with
  | nil =>
    obtain ⟨fuel, rfl⟩ : ∃ k, fuel = k + 1 := ⟨fuel - 1, by omega⟩
    rw [readItems]
    rfl
  | cons v a ih =>
    have split : tailItems (v :: a) = ',' :: (compactChars v ++ tailItems a) := rfl
    rw [split, List.length_cons, List.length_append] at hf
    have pos := compactChars_ne_nil (exact v List.mem_cons_self)
    obtain ⟨fuel, rfl⟩ : ∃ k, fuel = k + 3 := ⟨fuel - 3, by omega⟩
    rw [Value.heightOfItems] at hd
    rw [split, List.cons_append, List.append_assoc]
    refine readItems_comma (back v List.mem_cons_self _ _ _ (delimited_tailItems a rest) (by omega)
      (by omega)) (ih (fun w hw => back w (List.mem_cons_of_mem v hw))
        (fun w hw => exact w (List.mem_cons_of_mem v hw)) (by omega) (by omega))

/-- The fields after the first, behind those that are read already. -/
lemma readFields_tailFields {f : Fields} (back : ∀ p ∈ f, ReadBack p.2)
    (exact : ∀ p ∈ f, p.2.Exact) {seen : Fields} (keys : ((seen ++ f).map (·.1)).Nodup)
    {fuel depth : Nat} (rest : List Char) (hf : 3 * (tailFields f).length + 1 ≤ fuel)
    (hd : Value.heightOfFields f < depth) :
    readFields fuel depth false seen (tailFields f ++ '\x7d' :: rest) = .ok (seen ++ f, rest) := by
  induction f generalizing seen fuel with
  | nil =>
    obtain ⟨fuel, rfl⟩ : ∃ k, fuel = k + 1 := ⟨fuel - 1, by omega⟩
    rw [readFields, List.append_nil]
    rfl
  | cons p f ih =>
    obtain ⟨k, v⟩ := p
    have split : tailFields ((k, v) :: f) =
        ',' :: (quoteChars k.toList ++ ':' :: compactChars v ++ tailFields f) := rfl
    have fresh : k ∉ seen.map (·.1) := by
      rw [List.map_append, List.map_cons] at keys
      exact fun h => (List.nodup_append'.1 keys).2.2 h List.mem_cons_self
    have hv : ReadBack v := back (k, v) List.mem_cons_self
    have pos : 0 < (compactChars v).length := compactChars_ne_nil (exact (k, v) List.mem_cons_self)
    rw [split] at hf
    simp only [List.length_cons, List.length_append] at hf
    obtain ⟨fuel, rfl⟩ : ∃ n, fuel = n + 3 := ⟨fuel - 3, by omega⟩
    rw [Value.heightOfFields] at hd
    rw [split]
    simp only [List.cons_append, List.append_assoc]
    refine readFields_comma (hv _ _ _ (delimited_tailFields f rest) (by omega) (by omega)) ?_
    have step : readFields (fuel + 1) depth false (seen ++ [(k, v)])
        (tailFields f ++ '\x7d' :: rest) = .ok (seen ++ [(k, v)] ++ f, rest) :=
      ih (fun q hq => back q (List.mem_cons_of_mem _ hq))
        (fun q hq => exact q (List.mem_cons_of_mem _ hq)) (by rwa [List.append_assoc]) (by omega)
        (by omega)
    rw [put_of_not_mem fresh, step, List.append_assoc, List.singleton_append]

lemma readValue_quote (fuel depth : Nat) (s : List Char) :
    readValue (fuel + 1) depth ('"' :: s) =
      (readText s).map fun (t, r) => (.string (String.ofList t), r) := by
  rw [readValue]
  rfl

lemma readValue_bracket (fuel : Nat) {depth : Nat} (open? : 1 < depth) (s : List Char) :
    readValue (fuel + 1) depth ('[' :: s) =
      (readItems fuel (depth - 1) true s).map fun (a, r) => (.array a, r) := by
  rw [readValue]
  exact if_neg (by omega)

lemma readValue_brace (fuel : Nat) {depth : Nat} (open? : 1 < depth) (s : List Char) :
    readValue (fuel + 1) depth ('\x7b' :: s) =
      (readFields fuel (depth - 1) true [] s).map fun (f, r) => (.object f, r) := by
  rw [readValue]
  exact if_neg (by omega)

lemma readItems_compactItems {a : List Value} (back : ∀ v ∈ a, ReadBack v)
    (exact : ∀ v ∈ a, v.Exact) {fuel depth : Nat} (rest : List Char)
    (hf : 3 * (compactItems a).length + 4 ≤ fuel) (hd : Value.heightOfItems a < depth) :
    readItems fuel depth true (compactItems a ++ ']' :: rest) = .ok (a, rest) := by
  obtain ⟨fuel, rfl⟩ : ∃ k, fuel = k + 3 := ⟨fuel - 3, by omega⟩
  cases a with
  | nil =>
    rw [readItems]
    rfl
  | cons v a =>
    rw [compactItems_cons, List.length_append] at hf
    rw [Value.heightOfItems] at hd
    rw [compactItems_cons, List.append_assoc]
    exact readItems_first (back v List.mem_cons_self _ _ _ (delimited_tailItems a rest) (by omega)
      (by omega)) (readItems_tailItems (fun w hw => back w (List.mem_cons_of_mem v hw))
        (fun w hw => exact w (List.mem_cons_of_mem v hw)) rest (by omega) (by omega))

lemma readFields_compactFields {f : Fields} (back : ∀ p ∈ f, ReadBack p.2)
    (exact : ∀ p ∈ f, p.2.Exact) (keys : (f.map (·.1)).Nodup) {fuel depth : Nat}
    (rest : List Char) (hf : 3 * (compactFields f).length + 4 ≤ fuel)
    (hd : Value.heightOfFields f < depth) :
    readFields fuel depth true [] (compactFields f ++ '\x7d' :: rest) = .ok (f, rest) := by
  obtain ⟨fuel, rfl⟩ : ∃ k, fuel = k + 3 := ⟨fuel - 3, by omega⟩
  cases f with
  | nil =>
    rw [readFields]
    rfl
  | cons p f =>
    obtain ⟨k, v⟩ := p
    have hv : ReadBack v := back (k, v) List.mem_cons_self
    rw [compactFields_cons, compactField, List.length_append, List.length_append,
      List.length_cons] at hf
    rw [Value.heightOfFields] at hd
    dsimp only at hf
    rw [compactFields_cons, compactField, List.append_assoc, List.append_assoc, List.cons_append]
    exact readFields_first (hv _ _ _ (delimited_tailFields f rest) (by omega) (by omega))
      (readFields_tailFields (fun q hq => back q (List.mem_cons_of_mem _ hq))
        (fun q hq => exact q (List.mem_cons_of_mem _ hq)) keys rest (by omega) (by omega))

/-- A value is read back from its text without blanks. -/
theorem readBack_of_distinct {v : Value} (distinct : v.Distinct) (exact : v.Exact) :
    ReadBack v := by
  induction v using Value.induction with
  | null =>
    intro fuel depth rest _ hf _
    obtain ⟨fuel, rfl⟩ : ∃ k, fuel = k + 1 := ⟨fuel - 1, by simp [compactChars] at hf; omega⟩
    rw [readValue]
    rfl
  | bool b =>
    intro fuel depth rest _ hf _
    obtain ⟨fuel, rfl⟩ : ∃ k, fuel = k + 1 :=
      ⟨fuel - 1, by cases b <;> simp [compactChars] at hf <;> omega⟩
    cases b <;> (rw [readValue]; rfl)
  | number n =>
    intro fuel depth rest hrest hf hd
    have pos := compactChars_ne_nil exact
    cases exact with
    | number back =>
      exact readValue_mono (by omega) (by omega) (readValue_numeral_append hrest back)
  | string s =>
    intro fuel depth rest _ hf _
    have text : compactChars (.string s) ++ rest =
        '"' :: (s.toList.flatMap escapeChar ++ '"' :: rest) := by
      simp [compactChars, quoteChars]
    obtain ⟨fuel, rfl⟩ : ∃ k, fuel = k + 1 :=
      ⟨fuel - 1, by simp [compactChars, quoteChars] at hf; omega⟩
    rw [text, readValue_quote, readText_flatMap, Except.map]
    simp only [String.ofList_toList]
  | array a ih =>
    intro fuel depth rest _ hf hd
    have back : ∀ v ∈ a, ReadBack v := fun v hv => ih v hv (distinct.item v hv) (exact.item v hv)
    have text : compactChars (.array a) ++ rest = '[' :: (compactItems a ++ ']' :: rest) := by
      simp [compactChars]
    have length : (compactChars (.array a)).length = (compactItems a).length + 2 := by
      simp [compactChars]
    rw [Value.height] at hd
    obtain ⟨fuel, rfl⟩ : ∃ k, fuel = k + 1 := ⟨fuel - 1, by omega⟩
    rw [text, readValue_bracket fuel (by omega),
      readItems_compactItems back exact.item rest (by omega) (by omega), Except.map]
  | object f ih =>
    intro fuel depth rest _ hf hd
    have back : ∀ p ∈ f, ReadBack p.2 := fun p hp =>
      ih p hp (distinct.value p hp) (exact.value p hp)
    have text : compactChars (.object f) ++ rest =
        '\x7b' :: (compactFields f ++ '\x7d' :: rest) := by
      simp [compactChars]
    have length : (compactChars (.object f)).length = (compactFields f).length + 2 := by
      simp [compactChars]
    rw [Value.height] at hd
    obtain ⟨fuel, rfl⟩ : ∃ k, fuel = k + 1 := ⟨fuel - 1, by omega⟩
    rw [text, readValue_brace fuel (by omega),
      readFields_compactFields back exact.value distinct.keys rest (by omega) (by omega),
      Except.map]

/-! ## Documents -/

lemma readChars_eq_ok {s : List Char} {v : Value} :
    readChars s = .ok v ↔
      ∃ r, readValue (3 * s.length + 3) depthLimit s = .ok (v, r) ∧ skipBlanks r = [] := by
  rw [readChars]
  cases h : readValue (3 * s.length + 3) depthLimit s with
  | error e => simp [bind, Except.bind]
  | ok x =>
    obtain ⟨w, r⟩ := x
    dsimp only [bind, Except.bind]
    cases hr : skipBlanks r with
    | nil =>
      constructor
      · rintro ⟨⟩
        exact ⟨r, rfl, hr⟩
      · rintro ⟨r', h', -⟩
        obtain ⟨rfl, -⟩ := Prod.mk.inj (Except.ok.inj h')
        rfl
    | cons c t =>
      refine iff_of_false (by rintro ⟨⟩) ?_
      rintro ⟨r', h', hr'⟩
      obtain ⟨-, rfl⟩ := Prod.mk.inj (Except.ok.inj h')
      rw [hr] at hr'
      cases hr'

lemma read_eq_ok {s : List Char} {v : Value} : read s = .ok v ↔ readChars s = .ok v := by
  rw [read]
  cases readChars s <;> simp

/-- **A document is read back**, if its brackets are not too deep. -/
theorem read_compact {v : Value} (distinct : v.Distinct) (exact : v.Exact)
    (flat : v.height < depthLimit) : read v.compact.toList = .ok v := by
  have back := readBack_of_distinct distinct exact (3 * v.compact.toList.length + 3) depthLimit []
    delimited_nil (by simp [Value.compact]) flat
  rw [List.append_nil] at back
  rw [read_eq_ok, readChars_eq_ok, Value.compact, String.toList_ofList]
  rw [Value.compact, String.toList_ofList] at back
  exact ⟨[], back, rfl⟩

/-- Whatever a document is read as, it is the document. -/
theorem eq_of_read_compact {v w : Value} (distinct : v.Distinct) (exact : v.Exact)
    (h : read v.compact.toList = .ok w) : w = v := by
  rw [read_eq_ok, readChars_eq_ok, Value.compact, String.toList_ofList] at h
  obtain ⟨r, h, -⟩ := h
  have wide := readValue_mono (Nat.le_refl _) (Nat.le_max_left depthLimit (v.height + 1)) h
  have back := readBack_of_distinct distinct exact (3 * (compactChars v).length + 3)
    (max depthLimit (v.height + 1)) [] delimited_nil (by omega) (by omega)
  rw [List.append_nil, wide] at back
  exact (Prod.mk.inj (Except.ok.inj back)).1

/-- What is read opens fewer brackets inside of one another than the limit says. -/
theorem height_of_read {s : List Char} {v : Value} (h : Json.read s = .ok v) :
    v.height < depthLimit := by
  have bound : v.height ≤ depthLimit - 1 :=
    ensures_read (P := fun d v => v.height ≤ d - 1) (F := fun d f => ∀ p ∈ f, p.2.height ≤ d - 1)
      { null := fun _ => Nat.zero_le _
        bool := fun _ _ => Nat.zero_le _
        number := fun _ _ => Nat.zero_le _
        string := fun _ _ => Nat.zero_le _
        array := fun deep items => by
          rw [Value.height]
          have := Value.heightOfItems_le_iff.2 items
          omega
        object := fun deep fields => by
          rw [Value.height]
          have := Value.heightOfFields_le_iff.2 fields
          omega
        noFields := fun _ => nofun
        put := fun fields value p hp => (Fields.mem_put hp).elim (fun e => e ▸ value) (fields p) } h
  exact Nat.lt_of_le_of_lt bound (by decide)

/-- What the text of a document is read as, and when it is read. -/
theorem read_compact_eq_ok_iff {v w : Value} (distinct : v.Distinct) (exact : v.Exact) :
    read v.compact.toList = .ok w ↔ w = v ∧ v.height < depthLimit := by
  constructor
  · intro h
    obtain rfl := eq_of_read_compact distinct exact h
    exact ⟨rfl, height_of_read h⟩
  · rintro ⟨rfl, flat⟩
    exact read_compact distinct exact flat

/-- The text of a document determines it. -/
theorem compact_injective {v w : Value} (hv : v.Distinct) (hv' : v.Exact) (hw : w.Distinct)
    (hw' : w.Exact) (h : v.compact = w.compact) : v = w := by
  have chars : compactChars v = compactChars w := by
    rw [Value.compact, Value.compact] at h
    exact String.ofList_injective h
  have left := readBack_of_distinct hv hv' (3 * (compactChars v).length)
    (max v.height w.height + 1) [] delimited_nil (Nat.le_refl _) (by omega)
  have right := readBack_of_distinct hw hw' (3 * (compactChars w).length)
    (max v.height w.height + 1) [] delimited_nil (Nat.le_refl _) (by omega)
  rw [chars, right] at left
  exact (Prod.mk.inj (Except.ok.inj left)).1.symm

end ApiCanon.Json
