import ApiCanon.Proofs.GraphQl.Texts
import ApiCanon.Proofs.Text.Case
import ApiCanon.Source.Reading
import Mathlib.Data.List.TakeWhile

/-!
# Where tokens stand

A text is laid out as tokens with separators and comments between them (`Laid`), which says nothing
about how it is read, and nothing about lines.  A token ends where the next character cannot be
taken for more of it, and a comment at the end of its line.

The reader of tokens finds exactly the texts that are so laid out, and the tokens as they stand in
them (`tokens_eq_ok_iff`).  The line that it gives a token is that of the first character, less the
line feeds in front of it that the reader has not counted, which are those in texts on one line.
-/

namespace ApiCanon.GraphQl

/-! ## Written tokens -/

/-- A token as it is written in front of some characters. -/
inductive Lexeme.Written : Lexeme → List Char → List Char → Prop
  | name {c : Char} {w r : List Char} (start : isNameStart c = true)
      (inside : ∀ d ∈ w, isNameChar d = true) (ends : ∀ d ∈ r.head?, isNameChar d = false) :
      Written (.name (String.ofList (c :: w))) (c :: w) r
  | number {c : Char} {w r : List Char} (start : isNumberStart c = true)
      (inside : ∀ d ∈ w, isNumberChar d = true) (ends : ∀ d ∈ r.head?, isNumberChar d = false) :
      Written (.number (String.ofList (c :: w))) (c :: w) r
  | text {t w r : List Char} (written : WrittenText t w r) : Written (.text (String.ofList t)) w r
  | punct {c : Char} {r : List Char} (mark : c ∈ punctuation) : Written (.punct c) [c] r
  | spread {r : List Char} : Written .spread ['.', '.', '.'] r

section Runs

variable {p : Char → Bool} {w r : List Char}

lemma takeWhile_run (inside : ∀ d ∈ w, p d = true) (ends : ∀ d ∈ r.head?, p d = false) :
    (w ++ r).takeWhile p = w := by
  rw [List.takeWhile_append_of_pos inside]
  cases r with
  | nil => simp
  | cons d r => simp [ends d rfl]

lemma dropWhile_run (inside : ∀ d ∈ w, p d = true) (ends : ∀ d ∈ r.head?, p d = false) :
    (w ++ r).dropWhile p = r := by
  rw [List.dropWhile_append_of_pos inside]
  cases r with
  | nil => rfl
  | cons d r => simp [ends d rfl]

lemma run_inside (p : Char → Bool) (s : List Char) : ∀ d ∈ s.takeWhile p, p d = true :=
  fun _ => List.mem_takeWhile_imp

lemma run_ends (p : Char → Bool) (s : List Char) : ∀ d ∈ (s.dropWhile p).head?, p d = false := by
  intro d first
  have stops := List.head?_dropWhile_not p s
  rw [first] at stops
  exact stops

end Runs

/-! ### Classes of characters -/

lemma class_of_isNameStart {c : Char} (start : isNameStart c = true) :
    c ∉ specials ∧ isSeparator c = false := by
  have ascii : c.toNat < 128 := by
    rcases Bool.or_eq_true_iff.1 start with letter | underscore
    · exact Text.ascii_of_isAlphanum (by rw [Char.isAlphanum, letter, Bool.true_or])
    · rw [beq_iff_eq.1 underscore]
      decide
  exact Text.forall_ascii
    (P := fun c => isNameStart c = true → c ∉ specials ∧ isSeparator c = false)
    (by decide) ascii start

lemma class_of_isNumberStart {c : Char} (start : isNumberStart c = true) :
    c ∉ specials ∧ isSeparator c = false ∧ isNameStart c = false := by
  have ascii : c.toNat < 128 := by
    rcases Bool.or_eq_true_iff.1 start with digit | sign
    · exact Text.ascii_of_isAlphanum (by rw [Char.isAlphanum, digit, Bool.or_true])
    · rw [beq_iff_eq.1 sign]
      decide
  exact Text.forall_ascii (P := fun c => isNumberStart c = true →
    c ∉ specials ∧ isSeparator c = false ∧ isNameStart c = false) (by decide) ascii start

lemma class_of_punctuation {c : Char} (mark : c ∈ punctuation) :
    c ∉ specials ∧ isSeparator c = false ∧ isNameStart c = false ∧ isNumberStart c = false := by
  have each : punctuation.all (fun c => c ∉ specials ∧ isSeparator c = false ∧
      isNameStart c = false ∧ isNumberStart c = false) = true := by decide
  exact of_decide_eq_true (List.all_eq_true.1 each c mark)

/-! ### Steps -/

lemma hiddenFeeds_le (w : List Char) : hiddenFeeds w ≤ w.count '\n' := by
  unfold hiddenFeeds
  split_ifs
  · exact Nat.zero_le _
  · exact Nat.le_refl _

lemma add_hiddenFeeds_of_no_feed {w : List Char} (none : '\n' ∉ w) (line : Nat) :
    line + hiddenFeeds w = line + w.count '\n' := by
  have le := hiddenFeeds_le w
  have count := List.count_eq_zero.2 none
  omega

/-- A run of characters of a class without line feeds has none. -/
lemma no_feed_of_run {p : Char → Bool} (free : p '\n' = false) {c : Char} (plain : c ∉ specials)
    {w : List Char} (inside : ∀ d ∈ w, p d = true) : '\n' ∉ c :: w := by
  rw [List.mem_cons, not_or]
  refine ⟨?_, fun mem => ?_⟩
  · rintro rfl
    exact plain (by decide)
  · exact Bool.false_ne_true (free.symm.trans (inside _ mem))

/-- A written token is taken off the front of a text. -/
lemma Lexeme.Written.step {x : Lexeme} {w r : List Char} (written : x.Written w r) (line : Nat) :
    ∃ line', TokenStep line (w ++ r) (some ⟨x, line⟩) r line' ∧
      line' + hiddenFeeds w = line + w.count '\n' := by
  cases written with
  | @name c w r start inside ends =>
    obtain ⟨plain, noSeparator⟩ := class_of_isNameStart start
    have step : TokenStep line (c :: (w ++ r)) _ _ line := .name plain noSeparator start (w ++ r)
    rw [takeWhile_run inside ends, dropWhile_run inside ends] at step
    exact ⟨line, step, add_hiddenFeeds_of_no_feed (no_feed_of_run (by decide) plain inside) line⟩
  | @number c w r start inside ends =>
    obtain ⟨plain, noSeparator, noName⟩ := class_of_isNumberStart start
    have step : TokenStep line (c :: (w ++ r)) _ _ line :=
      .number plain noSeparator noName start (w ++ r)
    rw [takeWhile_run inside ends, dropWhile_run inside ends] at step
    exact ⟨line, step, add_hiddenFeeds_of_no_feed (no_feed_of_run (by decide) plain inside) line⟩
  | @text t w r written =>
    obtain ⟨line', read, feeds⟩ := written.readText line
    obtain ⟨s, rfl⟩ : ∃ s, w = '"' :: s := by cases written <;> exact ⟨_, rfl⟩
    exact ⟨line', .text read, feeds⟩
  | @punct c r mark =>
    obtain ⟨plain, noSeparator, noName, noNumber⟩ := class_of_punctuation mark
    refine ⟨line, .punct plain noSeparator noName noNumber (List.contains_iff_mem.2 mark) r, ?_⟩
    exact add_hiddenFeeds_of_no_feed (no_feed_of_run (p := isNameChar) (by decide) plain
      (List.forall_mem_nil _)) line
  | spread => exact ⟨line, .spread r, rfl⟩

/-- What is no token is passed over. -/
lemma TokenStep.tokensFrom_eq_rest {line line' : Nat} {s rest : List Char}
    (step : TokenStep line s none rest line') : tokensFrom line s = tokensFrom line' rest :=
  step.tokensFrom_eq.trans (map_id_eq _)

/-- A token that is taken off the front of a text is written there. -/
lemma TokenStep.written {line line' : Nat} {s rest : List Char} {t : Token}
    (step : TokenStep line s (some t) rest line') :
    ∃ w, s = w ++ rest ∧ t.lexeme.Written w rest := by
  cases step with
  | text read =>
    obtain ⟨w, whole, written⟩ := writtenText_of_readText read
    exact ⟨w, whole, .text written⟩
  | spread => exact ⟨_, rfl, .spread⟩
  | name _ _ start r =>
    have whole := List.takeWhile_append_dropWhile (p := isNameChar) (l := r)
    exact ⟨_, congrArg _ whole.symm, .name start (run_inside _ r) (run_ends _ r)⟩
  | number _ _ _ start r =>
    have whole := List.takeWhile_append_dropWhile (p := isNumberChar) (l := r)
    exact ⟨_, congrArg _ whole.symm, .number start (run_inside _ r) (run_ends _ r)⟩
  | punct _ _ _ _ mark => exact ⟨_, rfl, .punct (List.contains_iff_mem.1 mark)⟩

/-! ## Layouts -/

/-- A token in a text: all that stands in front of its first character, its characters, and what it
is. -/
structure Place where
  before : List Char
  written : List Char
  lexeme : Lexeme

namespace Place

/-- The line of the first character. -/
def line (p : Place) : Nat := lineAfter p.before

/-- The token on the line of its first character. -/
def token (p : Place) : Token := ⟨p.lexeme, p.line⟩

end Place

/-- The text behind `before` is laid out as tokens in these places, with separators and comments
between them. -/
inductive Laid : List Char → List Char → List Place → Prop
  | nil (before : List Char) : Laid before [] []
  | separator {before r : List Char} {c : Char} {ps : List Place} (separates : isSeparator c = true)
      (rest : Laid (before ++ [c]) r ps) : Laid before (c :: r) ps
  | comment {before c r : List Char} {ps : List Place} (inside : '\n' ∉ c)
      (ends : ∀ d ∈ r.head?, d = '\n') (rest : Laid (before ++ '#' :: c) r ps) :
      Laid before ('#' :: (c ++ r)) ps
  | token {before w r : List Char} {x : Lexeme} {ps : List Place} (written : x.Written w r)
      (rest : Laid (before ++ w) r ps) : Laid before (w ++ r) (⟨before, w, x⟩ :: ps)

/-- Wherever tokens are found, the text is laid out. -/
lemma exists_laid {line : Nat} {s : List Char} {ts : List Token}
    (found : tokensFrom line s = .ok ts) (before : List Char) : ∃ ps, Laid before s ps := by
  refine tokensFrom_induction (P := fun _ s _ => ∀ before, ∃ ps, Laid before s ps)
    (fun _ before => ⟨[], .nil before⟩)
    (fun {line s t? rest line' ts} step ih before => ?_) found before
  cases t? with
  | some t =>
    obtain ⟨w, rfl, written⟩ := step.written
    obtain ⟨ps, laid⟩ := ih (before ++ w)
    exact ⟨_, .token written laid⟩
  | none =>
    cases step with
    | lineFeed =>
      obtain ⟨ps, laid⟩ := ih (before ++ ['\n'])
      exact ⟨ps, .separator (by decide) laid⟩
    | comment r =>
      obtain ⟨ps, laid⟩ := ih (before ++ '#' :: r.takeWhile (· != '\n'))
      refine ⟨ps, ?_⟩
      rw [← List.takeWhile_append_dropWhile (p := (· != '\n')) (l := r)]
      refine .comment (fun mem => ?_) (fun d first => ?_) laid
      · simpa using run_inside _ r _ mem
      · simpa using run_ends _ r d first
    | separator plain separates r =>
      obtain ⟨ps, laid⟩ := ih (before ++ [_])
      exact ⟨ps, .separator separates laid⟩

/-- The tokens in their places as the reader numbers them, where `hidden` line feeds in front of
them have not been counted. -/
def numbered (hidden : Nat) : List Place → List Token
  | [] => []
  | p :: ps => ⟨p.lexeme, p.line - hidden⟩ :: numbered (hidden + hiddenFeeds p.written) ps

lemma lineAfter_append (before w : List Char) :
    lineAfter (before ++ w) = lineAfter before + w.count '\n' := by
  rw [lineAfter, lineAfter, List.count_append]
  omega

lemma specials_of_isSeparator {c : Char} (separates : isSeparator c = true) (feed : c ≠ '\n') :
    c ∉ specials := by
  intro special
  simp only [specials, List.mem_cons, List.not_mem_nil, or_false] at special
  rcases special with rfl | rfl | rfl | rfl
  · exact feed rfl
  all_goals exact absurd separates (by decide)

/-- The tokens of a text that is laid out are found. -/
lemma Laid.tokensFrom_eq {before s : List Char} {ps : List Place} (laid : Laid before s ps)
    {line hidden : Nat} (here : line + hidden = lineAfter before) :
    tokensFrom line s = .ok (numbered hidden ps) := by
  induction laid generalizing line hidden with
  | nil => exact tokensFrom_nil line
  | @separator before r c ps separates _ ih =>
    by_cases feed : c = '\n'
    · subst feed
      rw [(TokenStep.lineFeed r).tokensFrom_eq_rest]
      refine ih ?_
      rw [lineAfter_append, ← here, List.count_singleton_self]
      omega
    · have step : TokenStep line (c :: r) none r line :=
        .separator (specials_of_isSeparator separates feed) separates r
      rw [step.tokensFrom_eq_rest]
      refine ih ?_
      rw [lineAfter_append, here, List.count_singleton, beq_false_of_ne feed]
      rfl
  | @comment before c r ps inside ends _ ih =>
    have step : TokenStep line ('#' :: (c ++ r)) none _ line := .comment (c ++ r)
    have run : (c ++ r).dropWhile (· != '\n') = r :=
      dropWhile_run (fun d mem => by simpa using ne_of_mem_of_not_mem mem inside)
        fun d first => by simpa using ends d first
    rw [step.tokensFrom_eq_rest, run]
    refine ih ?_
    rw [lineAfter_append, here, List.count_cons_of_ne (by decide), List.count_eq_zero.2 inside]
    rfl
  | @token before w r x ps written _ ih =>
    obtain ⟨line', step, feeds⟩ := written.step line
    have behind : line' + (hidden + hiddenFeeds w) = lineAfter (before ++ w) := by
      rw [lineAfter_append]
      omega
    have number : (⟨before, w, x⟩ : Place).line - hidden = line := by
      rw [Place.line, ← here, Nat.add_sub_cancel]
    rw [step.tokensFrom_eq, ih behind, numbered, number]
    rfl

/-- **The tokens of a text are those that it is laid out as.** -/
theorem tokens_eq_ok_iff {s : List Char} {ts : List Token} :
    tokens s = .ok ts ↔ ∃ ps, Laid [] s ps ∧ ts = numbered 0 ps := by
  constructor
  · intro found
    obtain ⟨ps, laid⟩ := exists_laid found []
    exact ⟨ps, laid, Except.ok.inj (found.symm.trans (laid.tokensFrom_eq rfl))⟩
  · rintro ⟨ps, laid, rfl⟩
    exact laid.tokensFrom_eq rfl

end ApiCanon.GraphQl
