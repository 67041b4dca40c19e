import ApiCanon.GraphQl.Token
import ApiCanon.Proofs.Fallible
import Mathlib.Tactic.SplitIfs

/-!
# Tokens of texts behind one another

The tokens of a text are found step by step.  A step (`TokenStep`) takes a token or something
between tokens off the front, and leaves the rest of the text on some line.  It is the same step on
another line (`TokenStep.down`), and it is the same step if more lines come behind the text
(`TokenStep.append`): no token goes on over the end of a line but a text between triple quotes, and
such a text ends at its first three quotes.

So the tokens of two texts with a line feed between them are those of the first, and behind them
those of the second further down (`tokensFrom_append`).
-/

namespace ApiCanon.GraphQl

/-! ## Pieces of a text -/

section Stops

variable {p : Char → Bool} {c : Char}

lemma dropWhile_append_stop (stops : p c = false) (r u : List Char) :
    (r ++ c :: u).dropWhile p = r.dropWhile p ++ c :: u := by
  rw [List.dropWhile_append, List.dropWhile_cons_of_neg (by simp [stops])]
  split_ifs with none
  · rw [List.isEmpty_iff.1 none, List.nil_append]
  · rfl

lemma takeWhile_append_stop (stops : p c = false) (r u : List Char) :
    (r ++ c :: u).takeWhile p = r.takeWhile p := by
  rw [List.takeWhile_append, List.takeWhile_cons_of_neg (by simp [stops]), List.append_nil]
  split_ifs with all
  · exact ((List.takeWhile_prefix p).eq_of_length all).symm
  · rfl

end Stops

lemma consRead_eq_some_iff {c : Char} {x : Option (List Char × List Char)} {t r : List Char} :
    consRead c x = some (t, r) ↔ ∃ t', x = some (t', r) ∧ t = c :: t' := by
  cases x with
  | none => simp [consRead]
  | some y =>
    obtain ⟨t', r'⟩ := y
    simp only [consRead, Option.some.injEq, Prod.mk.injEq]
    constructor
    · rintro ⟨rfl, rfl⟩
      exact ⟨t', ⟨rfl, rfl⟩, rfl⟩
    · rintro ⟨_, ⟨rfl, rfl⟩, rfl⟩
      exact ⟨rfl, rfl⟩

/-- A text on one line ends where it does, whatever comes behind it. -/
lemma readQuoted_append {s t r : List Char} (h : readQuoted s = some (t, r)) (u : List Char) :
    readQuoted (s ++ u) = some (t, r ++ u) := by
  fun_induction readQuoted s generalizing t with
  | case1 | case3 | case5 | case6 | case8 => cases h
  | case2 =>
    cases h
    rfl
  | case4 a b c d r' x code ih =>
    obtain ⟨t', read, rfl⟩ := consRead_eq_some_iff.1 h
    simp [readQuoted, code, ih read, consRead]
  | case7 c r' _ plain ih =>
    obtain ⟨t', read, rfl⟩ := consRead_eq_some_iff.1 h
    rw [List.cons_append, List.cons_append, readQuoted, ih read, consRead]
    · exact fun _ _ _ _ _ same _ => plain same
    · exact plain
  | case9 c r' _ _ _ _ escaped ends ih =>
    obtain ⟨t', read, rfl⟩ := consRead_eq_some_iff.1 h
    have plain : c ≠ '\\' := by
      rintro rfl
      cases r' with
      | nil => exact ends rfl rfl
      | cons d r' => exact escaped d r' rfl rfl
    simp [readQuoted, plain, ih read, consRead]

/-- Two quotes in front of a line feed are not made of what comes behind it. -/
lemma quotes_of_append {r u v : List Char} (h : r ++ '\n' :: u = '"' :: '"' :: v) :
    ∃ v', r = '"' :: '"' :: v' := by
  match r with
  | [] => simp at h
  | [_] => simp at h
  | x :: y :: r =>
    simp only [List.cons_append, List.cons.injEq] at h
    exact ⟨r, by rw [h.1, h.2.1]⟩

/-- A text on several lines ends at its first three quotes, whatever lines come behind it. -/
lemma readBlock_append {s t r : List Char} (h : readBlock s = some (t, r)) (u : List Char) :
    readBlock (s ++ '\n' :: u) = some (t, r ++ '\n' :: u) := by
  fun_induction readBlock s generalizing t with
  | case1 =>
    cases h
    rfl
  | case2 c r' going ih =>
    obtain ⟨t', read, rfl⟩ := consRead_eq_some_iff.1 h
    rw [List.cons_append, readBlock, ih read, consRead]
    rintro v quote closes
    obtain ⟨v', rfl⟩ := quotes_of_append closes
    exact going v' quote rfl
  | case3 => cases h

lemma readText_append {line line' : Nat} {s t r : List Char}
    (h : readText line s = some (t, r, line')) (u : List Char) :
    readText line (s ++ '\n' :: u) = some (t, r ++ '\n' :: u, line') := by
  unfold readText at h
  split at h
  · split at h
    · next found =>
      cases h
      simp [readText, readBlock_append found]
    · cases h
  · next single =>
    split at h
    · next found =>
      cases h
      rw [List.cons_append, readText, readQuoted_append found]
      intro v block
      obtain ⟨v', rfl⟩ := quotes_of_append block
      exact single v' rfl
    · cases h
  · cases h

/-- What a text says does not depend on where it stands. -/
lemma readText_down {line line' : Nat} {s t r : List Char}
    (h : readText line s = some (t, r, line')) (n : Nat) :
    readText (line + n) s = some (t, r, line' + n) := by
  unfold readText at h ⊢
  split at h
  · split at h
    · cases h
      simp [Nat.add_right_comm]
    · cases h
  · split at h
    · cases h
      simp
    · cases h
  · cases h

lemma le_of_readText {line line' : Nat} {s t r : List Char}
    (h : readText line s = some (t, r, line')) : line ≤ line' := by
  unfold readText at h
  split at h
  · split at h
    · cases h
      exact Nat.le_add_right _ _
    · cases h
  · split at h
    · cases h
      exact Nat.le_refl _
    · cases h
  · cases h

/-! ## Steps -/

/-- The token further down in a text. -/
def Token.down (n : Nat) (t : Token) : Token := { t with line := t.line + n }

/-- The characters that are more than what their class tells: they end a line or begin a comment, a
text or dots. -/
def specials : List Char := ['\n', '#', '"', '.']

/-- A step from the front of a text on some line: the token that is taken, if there is one, and the
rest of the text with its line. -/
inductive TokenStep (line : Nat) : List Char → Option Token → List Char → Nat → Prop
  | lineFeed (r : List Char) : TokenStep line ('\n' :: r) none r (line + 1)
  | comment (r : List Char) : TokenStep line ('#' :: r) none (r.dropWhile (· != '\n')) line
  | text {r t rest : List Char} {line' : Nat}
      (read : readText line ('"' :: r) = some (t, rest, line')) :
      TokenStep line ('"' :: r) (some ⟨.text (String.ofList t), line⟩) rest line'
  | spread (r : List Char) :
      TokenStep line ('.' :: '.' :: '.' :: r) (some ⟨.spread, line⟩) r line
  | separator {c : Char} (plain : c ∉ specials) (separates : isSeparator c = true) (r : List Char) :
      TokenStep line (c :: r) none r line
  | name {c : Char} (plain : c ∉ specials) (noSeparator : isSeparator c = false)
      (start : isNameStart c = true) (r : List Char) :
      TokenStep line (c :: r) (some ⟨.name (String.ofList (c :: r.takeWhile isNameChar)), line⟩)
        (r.dropWhile isNameChar) line
  | number {c : Char} (plain : c ∉ specials) (noSeparator : isSeparator c = false)
      (noName : isNameStart c = false) (start : isNumberStart c = true) (r : List Char) :
      TokenStep line (c :: r) (some ⟨.number (String.ofList (c :: r.takeWhile isNumberChar)), line⟩)
        (r.dropWhile isNumberChar) line
  | punct {c : Char} (plain : c ∉ specials) (noSeparator : isSeparator c = false)
      (noName : isNameStart c = false) (noNumber : isNumberStart c = false)
      (mark : punctuation.contains c = true) (r : List Char) :
      TokenStep line (c :: r) (some ⟨.punct c, line⟩) r line

/-- What begins with a character that is not special is told apart by its class. -/
lemma tokensFrom_cons {c : Char} (plain : c ∉ specials) (line : Nat) (r : List Char) :
    tokensFrom line (c :: r) =
      if isSeparator c then tokensFrom line r
      else if isNameStart c then
        (tokensFrom line (r.dropWhile isNameChar)).map
          (⟨.name (String.ofList (c :: r.takeWhile isNameChar)), line⟩ :: ·)
      else if isNumberStart c then
        (tokensFrom line (r.dropWhile isNumberChar)).map
          (⟨.number (String.ofList (c :: r.takeWhile isNumberChar)), line⟩ :: ·)
      else if punctuation.contains c then (tokensFrom line r).map (⟨.punct c, line⟩ :: ·)
      else .error (.unexpectedCharacter c, line) := by
  rw [tokensFrom.eq_def]
  split
  · next same => cases same
  · next same => simp [specials, (List.cons.inj same).1] at plain
  · next same => simp [specials, (List.cons.inj same).1] at plain
  · next same => simp [specials, (List.cons.inj same).1] at plain
  · next same => simp [specials, (List.cons.inj same).1] at plain
  · next same =>
    cases same
    rfl

lemma tokensFrom_text {line line' : Nat} {r t rest : List Char}
    (h : readText line ('"' :: r) = some (t, rest, line')) :
    tokensFrom line ('"' :: r) =
      (tokensFrom line' rest).map (⟨.text (String.ofList t), line⟩ :: ·) := by
  rw [tokensFrom.eq_def]
  split
  · next same => cases same
  · next same => simp at same
  · next same => simp at same
  · next r' same =>
    obtain rfl := (List.cons.inj same).2
    split
    · next found =>
      cases h.symm.trans found
      rfl
    · next found => cases h.symm.trans found
  · next same => simp at same
  · next quote _ same => exact absurd (List.cons.inj same).1.symm quote

lemma map_id_eq {ε α : Type} (x : Except ε (List α)) : x.map ([] ++ ·) = x := by
  cases x <;> rfl

namespace TokenStep

variable {line line' : Nat} {s rest : List Char} {t? : Option Token}

/-- The reader of tokens goes on behind a step. -/
lemma tokensFrom_eq (step : TokenStep line s t? rest line') :
    tokensFrom line s = (tokensFrom line' rest).map (t?.toList ++ ·) := by
  cases step with
  | lineFeed =>
    rw [tokensFrom.eq_def]
    exact (map_id_eq _).symm
  | comment =>
    rw [tokensFrom.eq_def]
    exact (map_id_eq _).symm
  | text read => exact tokensFrom_text read
  | spread =>
    rw [tokensFrom.eq_def]
    rfl
  | separator plain separates =>
    rw [tokensFrom_cons plain, if_pos separates]
    exact (map_id_eq _).symm
  | name plain noSeparator start =>
    rw [tokensFrom_cons plain, if_neg (by simp [noSeparator]), if_pos start]
    rfl
  | number plain noSeparator noName start =>
    rw [tokensFrom_cons plain, if_neg (by simp [noSeparator]), if_neg (by simp [noName]),
      if_pos start]
    rfl
  | punct plain noSeparator noName noNumber mark =>
    rw [tokensFrom_cons plain, if_neg (by simp [noSeparator]), if_neg (by simp [noName]),
      if_neg (by simp [noNumber]), if_pos mark]
    rfl

/-- The same step on another line. -/
lemma down (step : TokenStep line s t? rest line') (n : Nat) :
    TokenStep (line + n) s (t?.map (Token.down n)) rest (line' + n) := by
  cases step with
  | lineFeed =>
    rw [Nat.add_right_comm]
    exact .lineFeed _
  | comment r => exact .comment r
  | text read => exact .text (readText_down read n)
  | spread => exact .spread _
  | separator plain separates => exact .separator plain separates _
  | name plain noSeparator start r => exact .name plain noSeparator start r
  | number plain noSeparator noName start r => exact .number plain noSeparator noName start r
  | punct plain noSeparator noName noNumber mark =>
    exact .punct plain noSeparator noName noNumber mark _

lemma line_le (step : TokenStep line s t? rest line') : line ≤ line' := by
  cases step with
  | lineFeed => exact Nat.le_succ line
  | text read => exact le_of_readText read
  | comment | spread | separator | name | number | punct => exact Nat.le_refl line

/-- The same step with more lines behind the text. -/
lemma append (step : TokenStep line s t? rest line') (u : List Char) :
    TokenStep line (s ++ '\n' :: u) t? (rest ++ '\n' :: u) line' := by
  cases step with
  | lineFeed => exact .lineFeed _
  | comment r =>
    rw [← dropWhile_append_stop (by decide)]
    exact .comment _
  | text read => exact .text (readText_append read u)
  | spread => exact .spread _
  | separator plain separates => exact .separator plain separates _
  | name plain noSeparator start r =>
    rw [← dropWhile_append_stop (by decide), ← takeWhile_append_stop (c := '\n') (by decide) r u]
    exact .name plain noSeparator start _
  | number plain noSeparator noName start r =>
    rw [← dropWhile_append_stop (by decide), ← takeWhile_append_stop (c := '\n') (by decide) r u]
    exact .number plain noSeparator noName start _
  | punct plain noSeparator noName noNumber mark =>
    exact .punct plain noSeparator noName noNumber mark _

end TokenStep

/-- A character of a class has no more to tell than its class if it is none of those that the reader
looks for first. -/
lemma not_mem_specials {c : Char} (feed : c ≠ '\n') (comment : c ≠ '#') (quote : c ≠ '"')
    (dot : c ≠ '.') : c ∉ specials := by
  simp [specials, feed, comment, quote, dot]

/-- Wherever tokens are found, steps lead through the whole text. -/
theorem tokensFrom_induction {P : Nat → List Char → List Token → Prop}
    (nil : ∀ line, P line [] [])
    (step : ∀ {line s t? rest line' ts}, TokenStep line s t? rest line' →
      P line' rest ts → P line s (t?.toList ++ ts))
    {line : Nat} {s : List Char} {ts : List Token} (h : tokensFrom line s = .ok ts) :
    P line s ts := by
  fun_induction tokensFrom line s generalizing ts with
  | case1 line =>
    cases h
    exact nil line
  | case2 line r ih => exact step (.lineFeed r) (ih h)
  | case3 line r ih => exact step (.comment r) (ih h)
  | case4 line r t rest line' read ih =>
    obtain ⟨ts, spelled, rfl⟩ := map_eq_ok_iff.1 h
    exact step (.text read) (ih spelled)
  | case5 | case11 => cases h
  | case6 line r ih =>
    obtain ⟨ts, spelled, rfl⟩ := map_eq_ok_iff.1 h
    exact step (.spread r) (ih spelled)
  | case7 line c r feed comment quote _ separates ih =>
    have dot : c ≠ '.' := by
      rintro rfl
      exact absurd separates (by decide)
    exact step (.separator (not_mem_specials feed comment quote dot) separates r) (ih h)
  | case8 line c r feed comment quote _ separates start ih =>
    obtain ⟨ts, spelled, rfl⟩ := map_eq_ok_iff.1 h
    have dot : c ≠ '.' := by
      rintro rfl
      exact absurd start (by decide)
    exact step (.name (not_mem_specials feed comment quote dot) (by simpa using separates) start r)
      (ih spelled)
  | case9 line c r feed comment quote _ separates noName start ih =>
    obtain ⟨ts, spelled, rfl⟩ := map_eq_ok_iff.1 h
    have dot : c ≠ '.' := by
      rintro rfl
      exact absurd start (by decide)
    exact step (.number (not_mem_specials feed comment quote dot) (by simpa using separates)
      (by simpa using noName) start r) (ih spelled)
  | case10 line c r feed comment quote _ separates noName noNumber mark ih =>
    obtain ⟨ts, spelled, rfl⟩ := map_eq_ok_iff.1 h
    have dot : c ≠ '.' := by
      rintro rfl
      exact absurd mark (by decide)
    exact step (.punct (not_mem_specials feed comment quote dot) (by simpa using separates)
      (by simpa using noName) (by simpa using noNumber) mark r) (ih spelled)

/-! ## Texts behind one another -/

/-- The tokens of a text that stands further down. -/
theorem tokensFrom_down {line : Nat} {s : List Char} {ts : List Token}
    (h : tokensFrom line s = .ok ts) (n : Nat) :
    tokensFrom (line + n) s = .ok (ts.map (Token.down n)) := by
  refine tokensFrom_induction (P := fun line s ts =>
    tokensFrom (line + n) s = .ok (ts.map (Token.down n))) (fun line => ?_)
    (fun {line s t? rest line' ts} step ih => ?_) h
  · rw [tokensFrom.eq_def]
    rfl
  · rw [(step.down n).tokensFrom_eq, ih, List.map_append, ← Option.toList_map]
    rfl

/-- The tokens of two texts, the second one on a line of its own: those of the first, and behind
them those of the second, which is some lines further down. -/
theorem tokensFrom_append {line : Nat} {s : List Char} {ts : List Token}
    (h : tokensFrom line s = .ok ts) :
    ∃ n, ∀ u, tokensFrom line (s ++ '\n' :: u) = (tokensFrom (line + n) u).map (ts ++ ·) := by
  refine tokensFrom_induction (P := fun line s ts =>
    ∃ n, ∀ u, tokensFrom line (s ++ '\n' :: u) = (tokensFrom (line + n) u).map (ts ++ ·))
    (fun line => ⟨1, fun u => (TokenStep.lineFeed u).tokensFrom_eq⟩)
    (fun {line s t? rest line' ts} step ⟨n, ih⟩ => ?_) h
  obtain ⟨m, rfl⟩ := Nat.exists_eq_add_of_le step.line_le
  refine ⟨m + n, fun u => ?_⟩
  rw [(step.append u).tokensFrom_eq, ih, ← Nat.add_assoc]
  cases tokensFrom (line + m + n) u with
  | error e => rfl
  | ok us => exact congrArg Except.ok (List.append_assoc _ _ _).symm

end ApiCanon.GraphQl
