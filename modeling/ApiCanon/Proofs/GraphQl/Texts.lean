import ApiCanon.Proofs.GraphQl.Tokens
import ApiCanon.Proofs.Text.Blank
import ApiCanon.Proofs.Text.Search
import ApiCanon.Proofs.Text.Utf8

/-!
# Texts and how they are written

A text on one line is written character by character between quotes, and each character has its ways
to be written (`Quotable`).  The reader finds exactly such a row of characters up to the next quote
that is not part of one (`readQuoted_eq_some_iff`).  So a literal has one value, and no part of it
that ends before its last quote has any (`quoted_decodes`).

A text on several lines goes on up to the next three quotes, wherever these stand
(`readBlock_eq_some_iff`): a backslash in front of them does not keep them from ending the text.  So
what stands between triple quotes never has three quotes in it, nothing of it is replaced
(`blockValue_of_single`), and of the texts written with their triple quotes behind backslashes only
those are read back that have none (`block_decodes_iff`).
-/

namespace ApiCanon.GraphQl

/-! ## Texts on one line -/

/-- The characters of a text one behind the other, each of them written in one of its ways. -/
inductive Spelled (way : Char → List Char → Prop) : List Char → List Char → Prop
  | nil : Spelled way [] []
  | cons {c : Char} {w t l : List Char} (first : way c w) (others : Spelled way t l) :
      Spelled way (c :: t) (w ++ l)

lemma Spelled.mono {way way' : Char → List Char → Prop} {t l : List Char} (h : Spelled way t l)
    (each : ∀ c w, way c w → way' c w) : Spelled way' t l := by
  induction h with
  | nil => exact .nil
  | cons first _ ih => exact .cons (each _ _ first) ih

/-- The ways to write a character between quotes. -/
inductive Quotable : Char → List Char → Prop
  | itself {c : Char} (plain : c ∉ ['"', '\\', '\n']) : Quotable c [c]
  | escaped {e : Char} (single : e ≠ 'u') : Quotable (unescape e) ['\\', e]
  | code {x a b c d : Char} (found : charOfCode? a b c d = some x) :
      Quotable x ['\\', 'u', a, b, c, d]

lemma Quotable.readQuoted_append {c : Char} {w : List Char} (way : Quotable c w) (r : List Char) :
    readQuoted (w ++ r) = consRead c (readQuoted r) := by
  cases way with
  | itself plain =>
    simp only [List.mem_cons, List.not_mem_nil, or_false, not_or] at plain
    simp [readQuoted, plain]
  | escaped single =>
    rw [List.cons_append, List.cons_append, readQuoted]
    · rfl
    · exact fun _ _ _ _ _ same _ => single same
    · exact single
  | code found => simp [readQuoted, found]

/-- No character begins with the quote that would end the text. -/
lemma Quotable.head_ne {c : Char} {w : List Char} (way : Quotable c w) :
    ∃ d r, w = d :: r ∧ d ≠ '"' := by
  cases way with
  | @itself c plain => exact ⟨c, [], rfl, fun same => plain (by simp [same])⟩
  | escaped => exact ⟨'\\', _, rfl, by decide⟩
  | code => exact ⟨'\\', _, rfl, by decide⟩

lemma Spelled.head_ne {t l : List Char} (spelled : Spelled Quotable t l) : l.head? ≠ some '"' := by
  cases spelled with
  | nil => simp
  | cons first =>
    obtain ⟨d, r, rfl, other⟩ := first.head_ne
    simp [other]

/-- A text on one line is read exactly from what spells it, up to the quote behind that. -/
theorem readQuoted_eq_some_iff {s t r : List Char} :
    readQuoted s = some (t, r) ↔ ∃ l, Spelled Quotable t l ∧ s = l ++ '"' :: r := by
  constructor
  · intro h
    fun_induction readQuoted s generalizing t with
    | case1 | case3 | case5 | case6 | case8 => cases h
    | case2 =>
      cases h
      exact ⟨[], .nil, rfl⟩
    | case4 a b c d s x found ih =>
      obtain ⟨t, read, rfl⟩ := consRead_eq_some_iff.1 h
      obtain ⟨l, spelled, rfl⟩ := ih read
      exact ⟨_, .cons (.code found) spelled, rfl⟩
    | case7 c s _ single ih =>
      obtain ⟨t, read, rfl⟩ := consRead_eq_some_iff.1 h
      obtain ⟨l, spelled, rfl⟩ := ih read
      exact ⟨_, .cons (.escaped single) spelled, rfl⟩
    | case9 c s quote feed _ _ escaped ends ih =>
      obtain ⟨t, read, rfl⟩ := consRead_eq_some_iff.1 h
      obtain ⟨l, spelled, rfl⟩ := ih read
      have backslash : c ≠ '\\' := by
        rintro rfl
        cases l with
        | nil => exact escaped _ _ rfl rfl
        | cons d l => exact escaped _ _ rfl rfl
      exact ⟨_, .cons (.itself (by simpa [backslash] using ⟨quote, feed⟩)) spelled, rfl⟩
  · rintro ⟨l, spelled, rfl⟩
    induction spelled with
    | nil => rfl
    | cons first _ ih => rw [List.append_assoc, first.readQuoted_append, ih, consRead]

/-- What is written for a text on one line has no value up to any place before the end. -/
lemma Spelled.readQuoted_eq_none {t l p : List Char} (spelled : Spelled Quotable t l)
    (part : p <+: l) : readQuoted p = none := by
  obtain ⟨u, rfl⟩ := part
  rw [Option.eq_none_iff_forall_not_mem]
  rintro ⟨t', r⟩ read
  have early := readQuoted_append read (u ++ ['"'])
  have whole : readQuoted (p ++ u ++ ['"']) = some (t, []) :=
    readQuoted_eq_some_iff.2 ⟨p ++ u, spelled, rfl⟩
  rw [← List.append_assoc, whole] at early
  simp at early

/-! ## Texts on several lines -/

/-- Three quotes, which stand around a text on several lines. -/
def tripleQuote : List Char := ['"', '"', '"']

/-- A text on several lines is read up to the first three quotes. -/
theorem readBlock_eq_some_iff {s t r : List Char} :
    readBlock s = some (t, r) ↔ s = t ++ tripleQuote ++ r ∧ ¬tripleQuote <:+: t ++ ['"', '"'] := by
  constructor
  · intro h
    fun_induction readBlock s generalizing t with
    | case1 =>
      cases h
      exact ⟨rfl, by decide⟩
    | case2 c s going ih =>
      obtain ⟨t, read, rfl⟩ := consRead_eq_some_iff.1 h
      obtain ⟨rfl, away⟩ := ih read
      refine ⟨rfl, fun found => ?_⟩
      rcases List.infix_cons_iff.1 found with ⟨v, here⟩ | behind
      · obtain ⟨quote, next⟩ : '"' = c ∧ '"' :: '"' :: v = t ++ ['"', '"'] := List.cons.inj here
        refine going (v ++ '"' :: r) quote.symm ?_
        calc t ++ tripleQuote ++ r = (t ++ ['"', '"']) ++ '"' :: r := by simp [tripleQuote]
          _ = '"' :: '"' :: (v ++ '"' :: r) := by rw [← next]; rfl
      · exact away behind
    | case3 => cases h
  · rintro ⟨rfl, away⟩
    induction t with
    | nil => rfl
    | cons c t ih =>
      rw [List.cons_append, List.infix_cons_iff, not_or] at away
      rw [List.cons_append, List.cons_append, readBlock, ih away.2, consRead]
      rintro v rfl next
      refine away.1 ?_
      have begins : ['"', '"'] <+: t ++ ['"', '"'] ++ '"' :: r :=
        ⟨v, by simpa [tripleQuote] using next.symm⟩
      exact List.cons_prefix_cons.2
        ⟨rfl, List.prefix_of_prefix_length_le begins (List.prefix_append _ _) (by simp)⟩

/-- What stands between triple quotes has no three quotes in it, and so nothing in it is
replaced. -/
lemma blockValue_of_single {t : List Char} (single : ¬tripleQuote <:+: t) :
    blockValue t = dedent t := by
  refine congrArg dedent (Text.replaceAll_of_not_infix (fun found => single ?_) _)
  exact (List.suffix_cons '\\' tripleQuote).isInfix.trans found

/-! ### Indentation -/

/-- The bytes in front of a line that are dropped are blank if they are part of its indentation, or
if all of the line is. -/
lemma solid_dropBytes? {n : Nat} {s r : List Char} (found : dropBytes? n s = some r)
    (blank : n ≤ indentation s ∨ Text.allBlank s = true) : Text.solid r = Text.solid s := by
  fun_induction dropBytes? n s with
  | case1 =>
    cases found
    rfl
  | case2 | case4 => cases found
  | case3 n c s fits ih =>
    have first : Text.isBlank c = true := by
      rcases blank with inside | all
      · by_contra visible
        rw [indentation, List.takeWhile_cons_of_neg visible] at inside
        exact Nat.not_succ_le_zero n inside
      · exact (Bool.and_eq_true_iff.1 all).1
    rw [Text.solid_cons_of_blank first]
    refine ih found (blank.imp (fun inside => ?_) fun all => (Bool.and_eq_true_iff.1 all).2)
    rw [indentation, List.takeWhile_cons_of_pos first, utf8Length_cons] at inside
    rw [indentation]
    omega

lemma commonIndentation_le {ls : List (List Char)} {l : List Char} (mem : l ∈ ls)
    (visible : Text.allBlank l = false) : commonIndentation ls ≤ indentation l :=
  List.min?_getD_le_of_mem (List.mem_map_of_mem (List.mem_filter.2 ⟨mem, by simp [visible]⟩))

lemma solid_dedentLine {indent : Nat} {l : List Char}
    (blank : indent ≤ indentation l ∨ Text.allBlank l = true) :
    Text.solid (dedentLine indent l) = Text.solid l := by
  rw [dedentLine, Text.solid_trimRight]
  cases found : dropBytes? indent l with
  | none => exact Text.solid_trimLeft l
  | some r => exact solid_dropBytes? found blank

/-- The value of a text on several lines has all its characters but blanks. -/
theorem solid_dedent (raw : List Char) : Text.solid (dedent raw) = Text.solid raw := by
  rw [dedent, Text.solid_trim, Text.solid_unlines, ← Text.solid_lines raw]
  cases Text.lines raw with
  | nil => rfl
  | cons first rest =>
    rw [List.flatten_cons, List.flatten_cons, Text.solid_append, Text.solid_append, Text.solid_trim]
    refine congrArg (Text.solid first ++ ·)
      (Text.solid_flatten_map fun l mem => solid_dedentLine ?_)
    cases all : Text.allBlank l with
    | true => exact .inr rfl
    | false => exact .inl (commonIndentation_le mem all)

lemma count_quote_dedent (raw : List Char) : (dedent raw).count '"' = raw.count '"' := by
  have visible : Text.isBlank '"' = false := by decide
  rw [← Text.count_solid visible, solid_dedent, Text.count_solid visible]

/-! ### Literals -/

/-- A text with a backslash in front of each three quotes. -/
def escapeBlock (t : List Char) : List Char := Text.replaceAll tripleQuote ('\\' :: tripleQuote) t

/-- A text between triple quotes, with a backslash in front of each three quotes of its own. -/
def blockLiteral (t : List Char) : List Char := tripleQuote ++ escapeBlock t ++ tripleQuote

lemma tripleQuote_ne_nil : tripleQuote ≠ [] := List.cons_ne_nil _ _

lemma escapeBlock_append (r : List Char) :
    escapeBlock (tripleQuote ++ r) = '\\' :: tripleQuote ++ escapeBlock r :=
  Text.replaceAll_append tripleQuote_ne_nil _ r

lemma escapeBlock_cons {c : Char} {s : List Char} (away : ¬tripleQuote <+: c :: s) :
    escapeBlock (c :: s) = c :: escapeBlock s :=
  Text.replaceAll_cons away _

/-- The quotes at the beginning are there before they are escaped. -/
lemma quotes_prefix_of_escapeBlock {n : Nat} {s : List Char}
    (begins : List.replicate n '"' <+: escapeBlock s) : List.replicate n '"' <+: s := by
  induction s using Text.occurrence_induction tripleQuote_ne_nil generalizing n with
  | nil => exact begins
  | occurs r ih =>
    rw [escapeBlock_append] at begins
    cases n with
    | zero => exact List.nil_prefix
    | succ n => exact absurd (List.cons_prefix_cons.1 begins).1 (by decide)
  | away c s away ih =>
    rw [escapeBlock_cons away] at begins
    cases n with
    | zero => exact List.nil_prefix
    | succ n =>
      obtain ⟨rfl, behind⟩ := List.cons_prefix_cons.1 begins
      exact List.cons_prefix_cons.2 ⟨rfl, ih behind⟩

/-- Once they are escaped, no three quotes are left at the beginning. -/
lemma not_tripleQuote_prefix_escapeBlock (s : List Char) : ¬tripleQuote <+: escapeBlock s := by
  intro begins
  obtain ⟨r, rfl⟩ : tripleQuote <+: s := quotes_prefix_of_escapeBlock (n := 3) begins
  rw [escapeBlock_append] at begins
  exact absurd (List.cons_prefix_cons.1 begins).1 (by decide)

/-- Taking the backslashes away again gives the text back. -/
theorem replaceAll_escapeBlock (t : List Char) :
    Text.replaceAll ('\\' :: tripleQuote) tripleQuote (escapeBlock t) = t := by
  have some : '\\' :: tripleQuote ≠ [] := List.cons_ne_nil _ _
  induction t using Text.occurrence_induction tripleQuote_ne_nil with
  | nil => rfl
  | occurs r ih => rw [escapeBlock_append, Text.replaceAll_append some, ih]
  | away c s away ih =>
    have apart : ¬('\\' :: tripleQuote) <+: c :: escapeBlock s := fun begins =>
      not_tripleQuote_prefix_escapeBlock s (List.cons_prefix_cons.1 begins).2
    rw [escapeBlock_cons away, Text.replaceAll_cons apart, ih]

/-- Three quotes with two quotes behind them are those of the text, or they begin at its last
one. -/
lemma not_tripleQuote_infix_iff {t : List Char} :
    ¬tripleQuote <:+: t ++ ['"', '"'] ↔ ¬tripleQuote <:+: t ∧ t.getLast? ≠ some '"' := by
  have last : tripleQuote <:+ t ++ ['"', '"'] ↔ t.getLast? = some '"' := by
    rw [List.getLast?_eq_some_iff]
    constructor
    · rintro ⟨u, whole⟩
      have same : u ++ ['"'] ++ ['"', '"'] = t ++ ['"', '"'] := by simpa [tripleQuote] using whole
      exact ⟨u, (List.append_cancel_right same).symm⟩
    · rintro ⟨u, rfl⟩
      exact ⟨u, by simp [tripleQuote]⟩
  have next : tripleQuote <:+ t ++ ['"'] → t.getLast? = some '"' := by
    rintro ⟨u, whole⟩
    have same : u ++ ['"', '"'] ++ ['"'] = t ++ ['"'] := by simpa [tripleQuote] using whole
    rw [← List.append_cancel_right same]
    simp
  rw [List.append_cons, List.infix_concat_iff, List.infix_concat_iff, ← List.append_cons, last]
  tauto

/-! ## Written texts -/

/-- A text as it is written in front of some characters. -/
inductive WrittenText : List Char → List Char → List Char → Prop
  /-- Two quotes with a third one behind them are no empty text. -/
  | quoted {t l r : List Char} (spelled : Spelled Quotable t l)
      (closed : l = [] → r.head? ≠ some '"') : WrittenText t ('"' :: (l ++ ['"'])) r
  | block {t r : List Char} (first : ¬tripleQuote <:+: t ++ ['"', '"']) :
      WrittenText (dedent t) (tripleQuote ++ t ++ tripleQuote) r

/-- The line feeds in a written token that are not counted as ends of lines: all of a text on one
line. -/
def hiddenFeeds (w : List Char) : Nat := if tripleQuote <+: w then 0 else w.count '\n'

lemma not_tripleQuote_prefix_quoted {l r : List Char} (head : l.head? ≠ some '"')
    (closed : l = [] → r.head? ≠ some '"') : ¬tripleQuote <+: '"' :: (l ++ '"' :: r) := by
  intro begins
  have next := (List.cons_prefix_cons.1 begins).2
  cases l with
  | nil =>
    have third := (List.cons_prefix_cons.1 next).2
    cases r with
    | nil => simp at third
    | cons d r => exact closed rfl (congrArg some (List.cons_prefix_cons.1 third).1.symm)
  | cons d l => exact head (congrArg some (List.cons_prefix_cons.1 next).1.symm)

lemma readText_of_single {r : List Char} (single : ¬tripleQuote <+: '"' :: r) (line : Nat) :
    readText line ('"' :: r) = (readQuoted r).map fun x => (x.1, x.2, line) := by
  rw [readText]
  · cases readQuoted r <;> rfl
  · rintro v rfl
    exact single ⟨v, rfl⟩

lemma readText_of_triple (r : List Char) (line : Nat) :
    readText line (tripleQuote ++ r) =
      (readBlock r).map fun x => (blockValue x.1, x.2, line + x.1.count '\n') := by
  rw [tripleQuote, List.cons_append, List.cons_append, List.cons_append, List.nil_append, readText]
  cases readBlock r <;> rfl

lemma hiddenFeeds_tripleQuote (r : List Char) : hiddenFeeds (tripleQuote ++ r) = 0 :=
  if_pos (List.prefix_append _ _)

lemma hiddenFeeds_of_single {w : List Char} (single : ¬tripleQuote <+: w) :
    hiddenFeeds w = w.count '\n' := if_neg single

lemma WrittenText.readText {t w r : List Char} (written : WrittenText t w r) (line : Nat) :
    ∃ line', readText line (w ++ r) = some (t, r, line') ∧
      line' + hiddenFeeds w = line + w.count '\n' := by
  cases written with
  | @quoted t l r spelled closed =>
    have single := not_tripleQuote_prefix_quoted spelled.head_ne closed
    have whole : '"' :: (l ++ ['"']) ++ r = '"' :: (l ++ '"' :: r) := by simp
    refine ⟨line, ?_, ?_⟩
    · rw [whole, readText_of_single single, readQuoted_eq_some_iff.2 ⟨l, spelled, rfl⟩]
      rfl
    · rw [hiddenFeeds_of_single]
      exact fun begins => single (whole ▸ begins.trans (List.prefix_append _ r))
  | @block t r first =>
    refine ⟨line + t.count '\n', ?_, ?_⟩
    · rw [List.append_assoc, List.append_assoc, readText_of_triple, ← List.append_assoc,
        readBlock_eq_some_iff.2 ⟨rfl, first⟩, Option.map_some,
        blockValue_of_single (not_tripleQuote_infix_iff.1 first).1]
    · rw [List.append_assoc, hiddenFeeds_tripleQuote, List.count_append, List.count_append]
      simp [tripleQuote]

/-- What is read as a text is a written one. -/
lemma writtenText_of_readText {line line' : Nat} {s t r : List Char}
    (read : readText line s = some (t, r, line')) : ∃ w, s = w ++ r ∧ WrittenText t w r := by
  obtain ⟨s, rfl⟩ : ∃ s', s = '"' :: s' := by
    unfold GraphQl.readText at read
    split at read
    · exact ⟨_, rfl⟩
    · exact ⟨_, rfl⟩
    · cases read
  by_cases triple : tripleQuote <+: '"' :: s
  · obtain ⟨v, whole⟩ := triple
    rw [← whole, readText_of_triple] at read
    obtain ⟨⟨raw, rest⟩, found, same⟩ := Option.map_eq_some_iff.1 read
    simp only [Prod.mk.injEq] at same
    obtain ⟨rfl, rfl, rfl⟩ := same
    obtain ⟨rfl, first⟩ := readBlock_eq_some_iff.1 found
    refine ⟨tripleQuote ++ raw ++ tripleQuote, by rw [← whole]; simp, ?_⟩
    rw [blockValue_of_single (not_tripleQuote_infix_iff.1 first).1]
    exact .block first
  · rw [readText_of_single triple] at read
    obtain ⟨⟨t, rest⟩, found, same⟩ := Option.map_eq_some_iff.1 read
    simp only [Prod.mk.injEq] at same
    obtain ⟨rfl, rfl, rfl⟩ := same
    obtain ⟨l, spelled, rfl⟩ := readQuoted_eq_some_iff.1 found
    refine ⟨'"' :: (l ++ ['"']), by simp, .quoted spelled ?_⟩
    rintro rfl quote
    obtain ⟨v, rfl⟩ := List.head?_eq_some_iff.1 quote
    exact triple ⟨v, rfl⟩

/-! ## Tokens -/

/-- A quote that begins no text ends the reading. -/
lemma tokensFrom_of_readText_eq_none {line : Nat} {r : List Char}
    (none : readText line ('"' :: r) = none) :
    tokensFrom line ('"' :: r) = .error (.unterminatedString, line) := by
  rw [tokensFrom.eq_def]
  split
  · next same => cases same
  · next same => simp at same
  · next same => simp at same
  · next r' same =>
    obtain rfl := (List.cons.inj same).2
    split
    · next found => cases none.symm.trans found
    · rfl
  · next same => simp at same
  · next quote _ same => exact absurd (List.cons.inj same).1.symm quote

/-- Where a text comes first, it is read first. -/
lemma exists_readText {line : Nat} {r : List Char} {ts : List Token}
    (found : tokensFrom line ('"' :: r) = .ok ts) :
    ∃ t rest line' others, readText line ('"' :: r) = some (t, rest, line') ∧
      tokensFrom line' rest = .ok others ∧ ts = ⟨.text (String.ofList t), line⟩ :: others := by
  cases read : readText line ('"' :: r) with
  | none =>
    rw [tokensFrom_of_readText_eq_none read] at found
    cases found
  | some x =>
    obtain ⟨t, rest, line'⟩ := x
    rw [tokensFrom_text read] at found
    obtain ⟨others, behind, rfl⟩ := map_eq_ok_iff.1 found
    exact ⟨t, rest, line', others, rfl, behind, rfl⟩

lemma tokensFrom_nil (line : Nat) : tokensFrom line [] = .ok [] := by
  rw [tokensFrom.eq_def]

/-- A written text by itself is one token. -/
lemma WrittenText.tokens {t w : List Char} (written : WrittenText t w []) :
    tokens w = .ok [⟨.text (String.ofList t), 1⟩] := by
  obtain ⟨line', read, -⟩ := written.readText 1
  rw [List.append_nil] at read
  obtain ⟨r, rfl⟩ : ∃ r, w = '"' :: r := by cases written <;> exact ⟨_, rfl⟩
  rw [GraphQl.tokens, tokensFrom_text read, tokensFrom_nil]
  rfl

/-! ## Literals -/

/-- The characters that are escaped in a literal on one line, each with what stands for it behind a
backslash. -/
def escapes : List (Char × Char) :=
  [('"', '"'), ('\\', '\\'), ('\n', 'n'), ('\t', 't'), ('\r', 'r')]

/-- The number that hexadecimal digits of either case stand for. -/
def hexNumber? (digits : List Char) : Option Nat :=
  digits.foldlM (fun n d => (Bytes.hexValue? d).map (n * 16 + ·)) 0

/-- How a character is written in a literal on one line: escaped if it has to be, and otherwise as
itself or as the four digits of its code. -/
inductive Escaped : Char → List Char → Prop
  | escape {c e : Char} (mem : (c, e) ∈ escapes) : Escaped c ['\\', e]
  | itself {c : Char} (plain : c ∉ escapes.map Prod.fst) : Escaped c [c]
  | code {x a b c d : Char} (plain : x ∉ escapes.map Prod.fst)
      (digits : hexNumber? [a, b, c, d] = some x.toNat) : Escaped x ['\\', 'u', a, b, c, d]

lemma charOfCode?_of_hexNumber? {x a b c d : Char}
    (digits : hexNumber? [a, b, c, d] = some x.toNat) : charOfCode? a b c d = some x := by
  simp only [hexNumber?, List.foldlM_cons, List.foldlM_nil, Option.bind_eq_bind,
    Option.bind_eq_some_iff, Option.map_eq_some_iff, Option.pure_def, Option.some.injEq] at digits
  obtain ⟨_, ⟨i, ha, rfl⟩, _, ⟨j, hb, rfl⟩, _, ⟨k, hc, rfl⟩, _, ⟨l, hd, rfl⟩, value⟩ := digits
  have sign : a ≠ '+' := by
    rintro rfl
    cases ha
  have number : code? a b c d = some x.toNat := by
    simp [code?, sign, ha, hb, hc, hd, ← value]
  have whole : ¬(0xD800 ≤ x.toNat ∧ x.toNat ≤ 0xDFFF) := by
    have valid : x.toNat < 0xD800 ∨ 0xDFFF < x.toNat ∧ x.toNat < 0x110000 := x.valid
    omega
  rw [charOfCode?, number]
  simp [whole]

lemma Escaped.quotable {c : Char} {w : List Char} (way : Escaped c w) : Quotable c w := by
  cases way with
  | escape mem =>
    simp only [escapes, List.mem_cons, Prod.mk.injEq, List.not_mem_nil, or_false] at mem
    rcases mem with ⟨rfl, rfl⟩ | ⟨rfl, rfl⟩ | ⟨rfl, rfl⟩ | ⟨rfl, rfl⟩ | ⟨rfl, rfl⟩
    exacts [.escaped (e := '"') (by decide), .escaped (e := '\\') (by decide),
      .escaped (e := 'n') (by decide), .escaped (e := 't') (by decide),
      .escaped (e := 'r') (by decide)]
  | itself plain =>
    refine .itself fun special => plain ?_
    simp only [List.mem_cons, List.not_mem_nil, or_false] at special
    rcases special with rfl | rfl | rfl <;> decide
  | code _ digits => exact .code (charOfCode?_of_hexNumber? digits)

/-- **Literals on one line are read back.**  A text that is written between quotes, each of its
characters escaped, as itself or as its code, is one token with the text as its value; and whatever
the literal begins with, short of its last quote, is a string that does not end. -/
theorem quoted_decodes {t l : List Char} (spelled : Spelled Escaped t l) :
    tokens ('"' :: (l ++ ['"'])) = .ok [⟨.text (String.ofList t), 1⟩] ∧
      ∀ p, p <+: '"' :: (l ++ ['"']) → p ≠ [] → p ≠ '"' :: (l ++ ['"']) →
        tokens p = .error (.unterminatedString, 1) := by
  have quotable : Spelled Quotable t l := spelled.mono fun _ _ => Escaped.quotable
  refine ⟨WrittenText.tokens (.quoted quotable fun _ => by simp), fun p part some short => ?_⟩
  obtain ⟨c, q, rfl⟩ := List.exists_cons_of_ne_nil some
  obtain ⟨rfl, begins⟩ := List.cons_prefix_cons.1 part
  have inside : q <+: l := (List.prefix_concat_iff.1 begins).resolve_left fun whole =>
    short (congrArg ('"' :: ·) whole)
  -- A part that begins with two quotes more would be taken for a text on several lines.
  have single : ¬tripleQuote <+: '"' :: q := fun begins => by
    have next := (List.cons_prefix_cons.1 begins).2.trans inside
    obtain ⟨v, rfl⟩ := next
    exact quotable.head_ne rfl
  refine tokensFrom_of_readText_eq_none ?_
  rw [readText_of_single single, quotable.readQuoted_eq_none inside]
  rfl

/-- A quote, a letter by its code, a letter by itself and a line feed. -/
theorem quoted_decodes_mixed :
    Spelled Escaped "\"éé\n".toList "\\\"\\u00E9é\\n".toList ∧
      tokens "\"\\\"\\u00E9é\\n\"".toList = .ok [⟨.text "\"éé\n", 1⟩] ∧
      tokens "\"\\\"\\u00".toList = .error (.unterminatedString, 1) := by
  have spelled : Spelled Escaped "\"éé\n".toList "\\\"\\u00E9é\\n".toList :=
    .cons (Escaped.escape (e := '"') (by decide)) <|
      .cons (Escaped.code (by decide) (by decide)) <| .cons (Escaped.itself (by decide)) <|
        .cons (Escaped.escape (e := 'n') (by decide)) .nil
  obtain ⟨whole, parts⟩ := quoted_decodes spelled
  exact ⟨spelled, whole, parts _ (by decide) (by decide) (by decide)⟩

lemma count_quote_escapeBlock (t : List Char) : (escapeBlock t).count '"' = t.count '"' := by
  have same : ('\\' :: tripleQuote).count '"' = tripleQuote.count '"' := by decide
  exact Text.count_replaceAll tripleQuote_ne_nil same t

/-- Where three quotes are escaped, they are still there. -/
lemma tripleQuote_infix_escapeBlock {t : List Char} (found : tripleQuote <:+: t) :
    tripleQuote <:+: escapeBlock t :=
  (List.suffix_cons '\\' tripleQuote).isInfix.trans
    (Text.infix_replaceAll tripleQuote_ne_nil found _)

/-- If a literal is read up to as many quotes as its text has, it is read up to its end. -/
lemma eq_escapeBlock_of_count {t raw r : List Char}
    (whole : escapeBlock t ++ tripleQuote = raw ++ tripleQuote ++ r)
    (same : raw.count '"' = t.count '"') : raw = escapeBlock t := by
  have none : r.count '"' = 0 := by
    have counts := congrArg (List.count '"') whole
    rw [List.count_append, List.count_append, List.count_append, count_quote_escapeBlock] at counts
    omega
  rcases List.eq_nil_or_concat' r with rfl | ⟨u, c, rfl⟩
  · rw [List.append_nil] at whole
    exact (List.append_cancel_right whole).symm
  · -- The literal ends with a quote, and so does whatever is left of it.
    have last : (raw ++ tripleQuote ++ (u ++ [c])).getLast? = some '"' := by
      rw [← whole, List.getLast?_append]
      rfl
    rw [← List.append_assoc, List.getLast?_concat] at last
    obtain rfl := Option.some.inj last
    simp at none

/-- **Texts between triple quotes are read back if they have no three quotes.**  Taking the
backslashes away in front of three quotes gives every text back.  But a text with such backslashes
is one token with the text, less its indentation, as its value if and only if there are none, and
the last character is no quote: the reader ends a text at its first three quotes, backslash or
not. -/
theorem block_decodes_iff (t : List Char) :
    blockValue (escapeBlock t) = dedent t ∧
      (tokens (blockLiteral t) = .ok [⟨.text (String.ofList (dedent t)), 1⟩] ↔
        ¬tripleQuote <:+: t ∧ t.getLast? ≠ some '"') := by
  refine ⟨congrArg dedent (replaceAll_escapeBlock t), fun decoded => ?_, fun ⟨single, last⟩ => ?_⟩
  · obtain ⟨v, rest, line', others, read, -, value⟩ := exists_readText decoded
    have triple : readText 1 (tripleQuote ++ (escapeBlock t ++ tripleQuote)) =
        some (v, rest, line') := by
      rw [← List.append_assoc]
      exact read
    rw [readText_of_triple] at triple
    obtain ⟨⟨raw, r⟩, found, same⟩ := Option.map_eq_some_iff.1 triple
    obtain ⟨whole, first⟩ := readBlock_eq_some_iff.1 found
    have values : dedent raw = dedent t := by
      have texts := (Token.mk.inj (List.cons.inj value).1).1
      rw [← blockValue_of_single (not_tripleQuote_infix_iff.1 first).1, (Prod.mk.inj same).1]
      exact (String.ofList_injective (Lexeme.text.inj texts)).symm
    have quotes : raw.count '"' = t.count '"' := by
      rw [← count_quote_dedent, values, count_quote_dedent]
    obtain rfl := eq_escapeBlock_of_count whole quotes
    obtain ⟨escaped, last⟩ := not_tripleQuote_infix_iff.1 first
    have single : ¬tripleQuote <:+: t := fun found => escaped (tripleQuote_infix_escapeBlock found)
    refine ⟨single, ?_⟩
    rwa [escapeBlock, Text.replaceAll_of_not_infix single] at last
  · have same : escapeBlock t = t := Text.replaceAll_of_not_infix single _
    rw [blockLiteral, same]
    exact WrittenText.tokens (.block (not_tripleQuote_infix_iff.2 ⟨single, last⟩))

/-- The text ends at the quotes behind the backslash, and those at the end begin another one. -/
theorem not_decoded_of_tripleQuote :
    blockLiteral "a\"\"\"b".toList = "\"\"\"a\\\"\"\"b\"\"\"".toList ∧
      "a\"\"\"b".toList.getLast? ≠ some '"' ∧ "a\"\"\"b".toList.getLast? ≠ some '\\' ∧
      tokens (blockLiteral "a\"\"\"b".toList) = .error (.unterminatedString, 1) := by
  decide +kernel

end ApiCanon.GraphQl
