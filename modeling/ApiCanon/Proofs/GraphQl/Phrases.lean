import ApiCanon.GraphQl.Definition
import ApiCanon.Proofs.Fallible

/-!
# Phrases of tokens

A phrase tells which tokens spell out which values, and is written down like a rule of a grammar:
phrases one behind the other, as alternatives, optional or repeated.  It says nothing about how
tokens are read.

A reader reads a phrase (`Reads`) if whatever it accepts begins with the phrase, and if it finds the
phrase wherever the next token cannot be taken for more of it.  The lexemes that can be so taken are
the bars of the reader.  Readers one behind the other read phrases one behind the other if what is
to come is clear of the bars (`Reads.bind`), and a reader that goes on in rounds reads a repeated
phrase up to its closing bracket (`Rounds.reads`).
-/

namespace ApiCanon.GraphQl

/-- Which values are spelled out by which tokens. -/
structure Phrase (α : Type) where
  spells : α → List Token → Prop

namespace Phrase

variable {α β : Type}

/-! ## Rules -/

instance : CoeFun (Phrase α) fun _ => α → List Token → Prop := ⟨spells⟩

instance : Monad Phrase where
  pure a := ⟨fun v ts => v = a ∧ ts = []⟩
  bind g f := ⟨fun v ts => ∃ a l m, g a l ∧ f a v m ∧ ts = l ++ m⟩

instance : OrElse (Phrase α) := ⟨fun g h => ⟨fun v ts => g v ts ∨ h () v ts⟩⟩

/-- A phrase that may be left out, which then stands for a value of choice. -/
def optional (absent : α) (g : Phrase α) : Phrase α := g <|> pure absent

/-- A phrase any number of times. -/
inductive Many (g : Phrase α) : List α → List Token → Prop
  | nil : Many g [] []
  | cons {a : α} {as : List α} {l m : List Token} (first : g a l) (others : Many g as m) :
      Many g (a :: as) (l ++ m)

def many (g : Phrase α) : Phrase (List α) := ⟨Many g⟩

/-- A given token, on any line. -/
def token (x : Lexeme) : Phrase Unit := ⟨fun _ ts => ∃ line, ts = [⟨x, line⟩]⟩

def punct (c : Char) : Phrase Unit := token (.punct c)

def word (w : String) : Phrase Unit := token (.name w)

/-- A given name, with its line. -/
def placedWord (w : String) : Phrase Nat := ⟨fun line ts => ts = [⟨.name w, line⟩]⟩

/-- Alternatives by their first words, each with the line of its word. -/
def keyed (table : List (String × (Nat → Phrase α))) : Phrase α :=
  ⟨fun v ts => ∃ p ∈ table, (placedWord p.1 >>= p.2) v ts⟩

def name : Phrase String := ⟨fun n ts => ∃ line, ts = [⟨.name n, line⟩]⟩

/-- A name, with its line. -/
def placedName : Phrase (String × Nat) := ⟨fun v ts => ts = [⟨.name v.1, v.2⟩]⟩

def text : Phrase String := ⟨fun s ts => ∃ line, ts = [⟨.text s, line⟩]⟩

def number : Phrase Unit := ⟨fun _ ts => ∃ s line, ts = [⟨.number s, line⟩]⟩

end Phrase

/-! ## What comes next -/

/-- The next token, if there is one, is none of some lexemes. -/
def Clear (bars : List Lexeme) (ts : List Token) : Prop := ∀ t ∈ ts.head?, t.lexeme ∉ bars

@[simp] lemma clear_nil (bars : List Lexeme) : Clear bars [] := nofun

@[simp] lemma clear_cons {bars : List Lexeme} {t : Token} {ts : List Token} :
    Clear bars (t :: ts) ↔ t.lexeme ∉ bars := by
  simp [Clear]

@[simp] lemma clear_of_no_bars (ts : List Token) : Clear [] ts := fun _ _ => List.not_mem_nil

lemma Clear.mono {bars fewer : List Lexeme} {ts : List Token} (h : Clear bars ts)
    (subset : fewer ⊆ bars) : Clear fewer ts := fun t ht hx => h t ht (subset hx)

namespace Phrase

variable {α β : Type} {g h : Phrase α} {f : α → Phrase β} {bars mid after : List Lexeme}

/-- In front of tokens that are clear of `after`, the phrase is clear of `bars`. -/
def Clears (g : Phrase α) (after bars : List Lexeme) : Prop :=
  ∀ v l rest, g v l → Clear after rest → Clear bars (l ++ rest)

lemma Clears.of_no_bars (g : Phrase α) (after : List Lexeme) : g.Clears after [] :=
  fun _ _ _ _ _ => clear_of_no_bars _

lemma Clears.pure {v : α} (subset : bars ⊆ after) : (pure v : Phrase α).Clears after bars := by
  rintro _ _ rest ⟨rfl, rfl⟩ clear
  exact clear.mono subset

lemma Clears.bind (first : g.Clears mid bars) (next : ∀ a, (f a).Clears after mid) :
    (g >>= f).Clears after bars := by
  rintro v _ rest ⟨a, l, m, hl, hm, rfl⟩ clear
  rw [List.append_assoc]
  exact first a l _ hl (next a v m rest hm clear)

lemma Clears.last {e : α → β} (clears : g.Clears after bars) :
    (g >>= fun a => Pure.pure (e a)).Clears after bars :=
  clears.bind fun _ => .pure (List.Subset.refl _)

/-- What clears the bars by itself does so whatever comes behind it. -/
lemma Clears.andThen (first : g.Clears [] bars) : (g >>= f).Clears after bars :=
  first.bind fun _ => .of_no_bars _ _

lemma Clears.orElse (first : g.Clears after bars) (second : h.Clears after bars) :
    (g <|> h).Clears after bars := by
  rintro v l rest (hl | hl) clear
  · exact first v l rest hl clear
  · exact second v l rest hl clear

lemma Clears.optional {absent : α} (present : g.Clears after bars) (subset : bars ⊆ after) :
    (optional absent g).Clears after bars :=
  present.orElse (.pure subset)

lemma Clears.many (each : g.Clears bars bars) (subset : bars ⊆ after) :
    (many g).Clears after bars := by
  rintro v l rest derived clear
  induction derived with
  | nil => exact clear.mono subset
  | cons first others ih =>
    rw [List.append_assoc]
    exact each _ _ _ first ih

lemma Clears.token {x : Lexeme} (free : x ∉ bars) : (token x).Clears after bars := by
  rintro _ _ rest ⟨line, rfl⟩ clear
  exact clear_cons.2 free

lemma Clears.placedWord {w : String} (free : .name w ∉ bars) :
    (placedWord w).Clears after bars := by
  rintro _ _ rest rfl clear
  exact clear_cons.2 free

lemma Clears.keyed {table : List (String × (Nat → Phrase α))}
    (free : ∀ p ∈ table, .name p.1 ∉ bars) : (keyed table).Clears after bars := by
  rintro v l rest ⟨p, hp, derived⟩ clear
  exact Clears.andThen (.placedWord (free p hp)) v l rest derived clear

/-- A phrase that begins with a name. -/
def Named (g : Phrase α) : Prop := ∀ v l, g v l → ∃ n line m, l = ⟨.name n, line⟩ :: m

/-- A phrase that is not empty and does not begin with punctuation. -/
def Worded (g : Phrase α) : Prop :=
  ∀ v l, g v l → ∃ t m, l = t :: m ∧ ∀ c, t.lexeme ≠ .punct c

lemma Named.worded (named : g.Named) : g.Worded := by
  intro v l derived
  obtain ⟨n, line, m, rfl⟩ := named v l derived
  exact ⟨_, m, rfl, nofun⟩

/-- Words clear all bars that are punctuation. -/
lemma Worded.clears (worded : g.Worded) (puncts : ∀ x ∈ bars, ∃ c, x = .punct c) :
    g.Clears after bars := by
  rintro v l rest derived -
  obtain ⟨t, m, rfl, begins⟩ := worded v l derived
  refine clear_cons.2 fun barred => ?_
  obtain ⟨c, same⟩ := puncts _ barred
  exact begins c same

lemma Named.andThen (named : g.Named) : (g >>= f).Named := by
  rintro v _ ⟨a, l, m, hl, -, rfl⟩
  obtain ⟨n, line, l, rfl⟩ := named a l hl
  exact ⟨n, line, l ++ m, rfl⟩

lemma named_name : name.Named := by
  rintro n _ ⟨line, rfl⟩
  exact ⟨n, line, [], rfl⟩

lemma named_placedName : placedName.Named := by
  rintro ⟨n, line⟩ _ rfl
  exact ⟨n, line, [], rfl⟩

lemma named_placedWord (w : String) : (placedWord w).Named := by
  rintro line _ rfl
  exact ⟨w, line, [], rfl⟩

lemma named_keyed (table : List (String × (Nat → Phrase α))) : (keyed table).Named := by
  rintro v l ⟨p, -, derived⟩
  exact (named_placedWord p.1).andThen v l derived

end Phrase

/-! ## Readers -/

/-- A reader gives a value and the tokens left. -/
abbrev Reader (α : Type) : Type := List Token → Read (α × List Token)

/-- A reader accepts nothing but the phrase, and accepts it unless a bar comes behind it. -/
structure Reads {α : Type} (p : Reader α) (g : Phrase α) (bars : List Lexeme) : Prop where
  sound : ∀ {ts v rest}, p ts = .ok (v, rest) → ∃ l, g v l ∧ ts = l ++ rest
  complete : ∀ {v l rest}, g v l → Clear bars rest → p (l ++ rest) = .ok (v, rest)

namespace Reads

variable {α β : Type} {p q : Reader α} {g h : Phrase α} {f : α → Phrase β}
  {k : α × List Token → Read (β × List Token)} {bars after : List Lexeme}

lemma pure (v : α) (bars : List Lexeme) : Reads (fun ts => .ok (v, ts)) (pure v) bars where
  sound := by
    rintro ts _ _ ⟨⟩
    exact ⟨[], ⟨rfl, rfl⟩, rfl⟩
  complete := by
    rintro _ _ rest ⟨rfl, rfl⟩ clear
    rfl

/-- Readers one behind the other. -/
lemma bind (first : Reads p g bars) (next : ∀ a, Reads (fun ts => k (a, ts)) (f a) after)
    (clears : ∀ a, (f a).Clears after bars) : Reads (fun ts => p ts >>= k) (g >>= f) after where
  sound := by
    intro ts v rest accepted
    obtain ⟨⟨a, mid⟩, head, tail⟩ := bind_eq_ok_iff.1 accepted
    obtain ⟨l, hl, rfl⟩ := first.sound head
    obtain ⟨m, hm, rfl⟩ := (next a).sound tail
    exact ⟨l ++ m, ⟨a, l, m, hl, hm, rfl⟩, (List.append_assoc l m rest).symm⟩
  complete := by
    rintro v _ rest ⟨a, l, m, hl, hm, rfl⟩ clear
    rw [List.append_assoc, first.complete hl (clears a v m rest hm clear)]
    exact (next a).complete hm clear

/-- A reader whose value is all that is left to be put together. -/
lemma last {e : α → β} (reads : Reads p g bars) (subset : bars ⊆ after)
    (made : ∀ a ts, k (a, ts) = .ok (e a, ts)) :
    Reads (fun ts => p ts >>= k) (g >>= fun a => Pure.pure (e a)) after :=
  reads.bind (fun a => by simpa only [made] using pure (e a) after) fun _ => .pure subset

/-- A reader without bars, whatever comes behind it. -/
lemma andThen (first : Reads p g []) (next : ∀ a, Reads (fun ts => k (a, ts)) (f a) after) :
    Reads (fun ts => p ts >>= k) (g >>= f) after :=
  first.bind next fun _ => .of_no_bars _ _

/-- A reader that branches, in front of another one. -/
lemma bindIte {next : List Token → Bool}
    (first : Reads (fun ts => if next ts then p ts else q ts) g bars)
    (behind : ∀ a, Reads (fun ts => k (a, ts)) (f a) after)
    (clears : ∀ a, (f a).Clears after bars) :
    Reads (fun ts => if next ts then p ts >>= k else q ts >>= k) (g >>= f) after := by
  have reads := first.bind behind clears
  simpa only [apply_ite (· >>= k)] using reads

end Reads

/-! ## Single tokens -/

/-- A test for the next token. -/
def Tests (next : List Token → Bool) (x : Lexeme) : Prop :=
  ∀ ts, next ts = true ↔ ∃ line rest, ts = ⟨x, line⟩ :: rest

lemma tests_atPunct (c : Char) : Tests (atPunct c) (.punct c) := by
  intro ts
  unfold atPunct
  split
  · next d line rest => simp
  · next other =>
    refine iff_of_false Bool.false_ne_true ?_
    rintro ⟨line, rest, rfl⟩
    exact other c line rest rfl

lemma tests_atName (w : String) : Tests (atName w) (.name w) := by
  intro ts
  unfold atName
  split
  · next n line rest => simp
  · next other =>
    refine iff_of_false Bool.false_ne_true ?_
    rintro ⟨line, rest, rfl⟩
    exact other w line rest rfl

section Tests

variable {α : Type} {next : List Token → Bool} {x : Lexeme} {p : Reader α} {g : Phrase α}
  {bars : List Lexeme}

lemma Tests.cons (tests : Tests next x) (line : Nat) (rest : List Token) :
    next (⟨x, line⟩ :: rest) = true :=
  (tests _).2 ⟨line, rest, rfl⟩

lemma Tests.of_clear (tests : Tests next x) {ts : List Token} (clear : Clear [x] ts) :
    next ts = false := by
  refine Bool.eq_false_iff.2 fun found => ?_
  obtain ⟨line, rest, rfl⟩ := (tests ts).1 found
  exact clear_cons.1 clear List.mem_cons_self

lemma Tests.of_other (tests : Tests next x) {t : Token} (other : t.lexeme ≠ x)
    (rest : List Token) : next (t :: rest) = false :=
  tests.of_clear (by simpa using other)

/-- What is read only behind a given token. -/
lemma Tests.reads (tests : Tests next x) (reads : Reads p g bars) (absent : α) :
    Reads (fun ts => if next ts then p ts.tail else .ok (absent, ts))
      (Phrase.optional absent do Phrase.token x; g) (x :: bars) where
  sound := by
    intro ts v rest accepted
    split at accepted
    · next found =>
      obtain ⟨line, r, rfl⟩ := (tests ts).1 found
      obtain ⟨l, hl, rfl⟩ := reads.sound accepted
      exact ⟨⟨x, line⟩ :: l, Or.inl ⟨(), [⟨x, line⟩], l, ⟨line, rfl⟩, hl, rfl⟩, rfl⟩
    · cases accepted
      exact ⟨[], Or.inr ⟨rfl, rfl⟩, rfl⟩
  complete := by
    rintro v l rest (⟨_, _, m, ⟨line, rfl⟩, hm, rfl⟩ | ⟨rfl, rfl⟩) clear
    · have found := tests.cons line (m ++ rest)
      simpa [found] using reads.complete hm (clear.mono (List.subset_cons_self _ _))
    · have missed := tests.of_clear (clear.mono (by simp))
      simp [missed]

/-- What is passed over if it comes next. -/
lemma Tests.passes (tests : Tests next x) (reads : Reads p g bars) (clears : g.Clears bars [x]) :
    Reads (fun ts => p (if next ts then ts.tail else ts))
      (do Phrase.optional () (Phrase.token x); g) bars where
  sound := by
    intro ts v rest accepted
    split at accepted
    · next found =>
      obtain ⟨line, r, rfl⟩ := (tests ts).1 found
      obtain ⟨l, hl, rfl⟩ := reads.sound accepted
      exact ⟨⟨x, line⟩ :: l, ⟨(), [⟨x, line⟩], l, Or.inl ⟨line, rfl⟩, hl, rfl⟩, rfl⟩
    · obtain ⟨l, hl, rfl⟩ := reads.sound accepted
      exact ⟨l, ⟨(), [], l, Or.inr ⟨rfl, rfl⟩, hl, rfl⟩, rfl⟩
  complete := by
    rintro v _ rest ⟨_, l, m, hl, hm, rfl⟩ clear
    rcases hl with ⟨line, rfl⟩ | ⟨-, rfl⟩
    · have found := tests.cons line (m ++ rest)
      simpa [found] using reads.complete hm clear
    · have missed := tests.of_clear (clears v m rest hm clear)
      simpa [missed] using reads.complete hm clear

/-- What is read behind a given token. -/
lemma Tests.expects (tests : Tests next x) (reads : Reads p g bars) (fault : List Token → Fault) :
    Reads (fun ts => if next ts then p ts.tail else .error (fault ts))
      (do Phrase.token x; g) bars where
  sound := by
    intro ts v rest accepted
    split at accepted
    · next found =>
      obtain ⟨line, r, rfl⟩ := (tests ts).1 found
      obtain ⟨l, hl, rfl⟩ := reads.sound accepted
      exact ⟨⟨x, line⟩ :: l, ⟨(), [⟨x, line⟩], l, ⟨line, rfl⟩, hl, rfl⟩, rfl⟩
    · cases accepted
  complete := by
    rintro v _ rest ⟨_, _, m, ⟨line, rfl⟩, hm, rfl⟩ clear
    have found := tests.cons line (m ++ rest)
    simpa [found] using reads.complete hm clear

end Tests

lemma expectPunct_eq_ok_iff {c : Char} {ts rest : List Token} :
    expectPunct c ts = .ok rest ↔ ∃ line, ts = ⟨.punct c, line⟩ :: rest := by
  unfold expectPunct
  split
  · next found =>
    obtain ⟨line, r, rfl⟩ := (tests_atPunct c ts).1 found
    simp
  · next missed =>
    refine iff_of_false nofun ?_
    rintro ⟨line, rfl⟩
    exact missed ((tests_atPunct c).cons line rest)

lemma Reads.expectPunct {α : Type} {c : Char} {p : Reader α} {g : Phrase α} {bars : List Lexeme}
    (reads : Reads p g bars) :
    Reads (fun ts => expectPunct c ts >>= p) (do Phrase.punct c; g) bars where
  sound := by
    intro ts v rest accepted
    obtain ⟨r, head, tail⟩ := bind_eq_ok_iff.1 accepted
    obtain ⟨line, rfl⟩ := expectPunct_eq_ok_iff.1 head
    obtain ⟨l, hl, rfl⟩ := reads.sound tail
    exact ⟨⟨.punct c, line⟩ :: l, ⟨(), [⟨.punct c, line⟩], l, ⟨line, rfl⟩, hl, rfl⟩, rfl⟩
  complete := by
    rintro v _ rest ⟨_, _, m, ⟨line, rfl⟩, hm, rfl⟩ clear
    have head : GraphQl.expectPunct c (⟨.punct c, line⟩ :: (m ++ rest)) = .ok (m ++ rest) :=
      expectPunct_eq_ok_iff.2 ⟨line, rfl⟩
    exact (congrArg (· >>= p) head).trans (reads.complete hm clear)

lemma expectName_eq_ok_iff {ts rest : List Token} {n : String} :
    expectName ts = .ok (n, rest) ↔ ∃ line, ts = ⟨.name n, line⟩ :: rest := by
  unfold expectName
  split
  · next n' line r =>
    simp [and_comm]
  · next other =>
    refine iff_of_false nofun ?_
    rintro ⟨line, rfl⟩
    exact other n line rest rfl

lemma expectName_of_other {ts : List Token}
    (other : ∀ n line rest, ts = ⟨.name n, line⟩ :: rest → False) :
    expectName ts = .error ⟨.nameExpected, ts⟩ := by
  unfold expectName
  split
  · next n line rest => exact absurd rfl (other n line rest)
  · rfl

lemma reads_expectName : Reads expectName Phrase.name [] where
  sound := by
    intro ts n rest accepted
    obtain ⟨line, rfl⟩ := expectName_eq_ok_iff.1 accepted
    exact ⟨[⟨.name n, line⟩], ⟨line, rfl⟩, rfl⟩
  complete := by
    rintro n _ rest ⟨line, rfl⟩ -
    rfl

/-- Reads a name with its line. -/
def placed (last : Nat) : Reader (String × Nat) := fun ts =>
  expectName ts >>= fun r => .ok ((r.1, lineOf last ts), r.2)

lemma reads_placed (last : Nat) : Reads (placed last) Phrase.placedName [] where
  sound := by
    rintro ts ⟨n, line⟩ rest accepted
    obtain ⟨⟨m, r⟩, head, made⟩ := bind_eq_ok_iff.1 accepted
    obtain ⟨line', rfl⟩ := expectName_eq_ok_iff.1 head
    cases made
    exact ⟨_, rfl, rfl⟩
  complete := by
    rintro ⟨n, line⟩ _ rest rfl -
    rfl

/-- Alternatives are told apart by their first words. -/
lemma Reads.keyed {α : Type} {table : List (String × (Nat → Phrase α))} {bars : List Lexeme}
    (last : Nat) (body : String × Nat → Reader α)
    (each : ∀ p ∈ table, ∀ line, Reads (body (p.1, line)) (p.2 line) bars)
    (known : ∀ w line ts r, body (w, line) ts = .ok r → w ∈ table.map (·.1)) :
    Reads (fun ts => placed last ts >>= fun r => body r.1 r.2) (Phrase.keyed table) bars where
  sound := by
    intro ts v rest accepted
    obtain ⟨⟨⟨w, line⟩, r⟩, head, tail⟩ := bind_eq_ok_iff.1 accepted
    obtain ⟨_, rfl, rfl⟩ := (reads_placed last).sound head
    obtain ⟨p, hp, rfl⟩ := List.mem_map.1 (known w line r _ tail)
    obtain ⟨l, hl, rfl⟩ := (each p hp line).sound tail
    exact ⟨_, ⟨p, hp, line, _, l, rfl, hl, rfl⟩, rfl⟩
  complete := by
    rintro v _ rest ⟨p, hp, line, _, l, rfl, hl, rfl⟩ clear
    exact (each p hp line).complete hl clear

/-! ## Items behind their marks -/

/-- A phrase that begins with a given token. -/
def Phrase.Begins {α : Type} (g : Phrase α) (x : Lexeme) : Prop :=
  ∀ v l, g v l → ∃ line m, l = ⟨x, line⟩ :: m

lemma Phrase.begins_token {α : Type} (x : Lexeme) (g : Phrase α) : (do token x; g).Begins x := by
  rintro v _ ⟨_, _, m, ⟨line, rfl⟩, -, rfl⟩
  exact ⟨line, m, rfl⟩

/-- A reader of items as long as a given token comes next. -/
structure Trail {α : Type} (x : Lexeme) (item : Reader α) (loop : Reader (List α)) : Prop where
  stop : ∀ ts, Clear [x] ts → loop ts = .ok ([], ts)
  next : ∀ line ts, loop (⟨x, line⟩ :: ts) =
    item (⟨x, line⟩ :: ts) >>= fun r => loop r.2 >>= fun s => .ok (r.1 :: s.1, s.2)

namespace Trail

variable {α : Type} {x : Lexeme} {item : Reader α} {loop : Reader (List α)} {g : Phrase α}
  {bars : List Lexeme}

lemma sound (trail : Trail x item loop) (each : Reads item g bars) (begins : g.Begins x)
    {ts rest : List Token} {as : List α} (accepted : loop ts = .ok (as, rest)) :
    ∃ l, Phrase.Many g as l ∧ ts = l ++ rest := by
  induction length : ts.length using Nat.strongRecOn generalizing ts as with
  | ind n ih =>
    subst length
    by_cases clear : Clear [x] ts
    · cases (trail.stop ts clear).symm.trans accepted
      exact ⟨[], .nil, rfl⟩
    · obtain ⟨line, r, rfl⟩ : ∃ line r, ts = ⟨x, line⟩ :: r := by
        cases ts with
        | nil => exact absurd (clear_nil _) clear
        | cons t r =>
          obtain ⟨y, line⟩ := t
          obtain rfl : y = x := by simpa using clear
          exact ⟨line, r, rfl⟩
      rw [trail.next line r] at accepted
      obtain ⟨⟨a, mid⟩, head, accepted⟩ := bind_eq_ok_iff.1 accepted
      obtain ⟨⟨as, tail⟩, others, accepted⟩ := bind_eq_ok_iff.1 accepted
      cases accepted
      obtain ⟨l, first, here⟩ := each.sound head
      obtain ⟨line', l, rfl⟩ := begins a l first
      have shorter : mid.length < (⟨x, line⟩ :: r : List Token).length := by
        simp only [here, List.length_append, List.length_cons]
        omega
      obtain ⟨m, derived, rfl⟩ := ih _ shorter others rfl
      exact ⟨_, .cons first derived, here.trans (List.append_assoc _ _ _).symm⟩

theorem reads (trail : Trail x item loop) (each : Reads item g bars) (begins : g.Begins x)
    (free : x ∉ bars) : Reads loop (Phrase.many g) (x :: bars) where
  sound := trail.sound each begins
  complete := by
    intro as l rest derived clear
    have clears : g.Clears bars bars := by
      rintro a l r first -
      obtain ⟨line, m, rfl⟩ := begins a l first
      exact clear_cons.2 free
    induction derived with
    | nil => exact trail.stop rest (clear.mono (by simp))
    | @cons a as l m first others ih =>
      have behind : Clear bars (m ++ rest) :=
        clears.many (List.Subset.refl _) as m rest others
          (clear.mono (List.subset_cons_self _ _))
      have head := each.complete first behind
      obtain ⟨line, l, rfl⟩ := begins a l first
      rw [List.append_assoc, List.cons_append, trail.next]
      rw [List.cons_append] at head
      rw [head]
      simp [bind, Except.bind, ih]

end Trail

/-! ## Rounds -/

/-- A reader of items up to a closing bracket, which takes a round for each of them. -/
structure Rounds {α : Type} (closing : Char) (item : Reader α) (loop : Nat → Reader (List α)) :
    Prop where
  out : ∀ ts r, loop 0 ts ≠ .ok r
  unclosed : ∀ fuel r, loop fuel [] ≠ .ok r
  close : ∀ fuel line ts, loop (fuel + 1) (⟨.punct closing, line⟩ :: ts) = .ok ([], ts)
  next : ∀ fuel t ts, t.lexeme ≠ .punct closing → loop (fuel + 1) (t :: ts) =
    item (t :: ts) >>= fun r => loop fuel r.2 >>= fun s => .ok (r.1 :: s.1, s.2)

namespace Rounds

variable {α : Type} {closing : Char} {item : Reader α} {loop : Nat → Reader (List α)}
  {g : Phrase α} {bars : List Lexeme}

lemma sound (rounds : Rounds closing item loop) (each : Reads item g bars) {fuel : Nat}
    {ts rest : List Token} {as : List α} (accepted : loop fuel ts = .ok (as, rest)) :
    ∃ l line, Phrase.Many g as l ∧ ts = l ++ ⟨.punct closing, line⟩ :: rest := by
  induction fuel generalizing ts as with
  | zero => exact absurd accepted (rounds.out ts _)
  | succ fuel ih =>
    cases ts with
    | nil => exact absurd accepted (rounds.unclosed _ _)
    | cons t r =>
      by_cases closes : t.lexeme = .punct closing
      · obtain ⟨_, line⟩ := t
        obtain rfl : _ = Lexeme.punct closing := closes
        cases (rounds.close fuel line r).symm.trans accepted
        exact ⟨[], line, .nil, rfl⟩
      · rw [rounds.next fuel t r closes] at accepted
        obtain ⟨⟨a, mid⟩, head, accepted⟩ := bind_eq_ok_iff.1 accepted
        obtain ⟨⟨as, tail⟩, others, accepted⟩ := bind_eq_ok_iff.1 accepted
        cases accepted
        obtain ⟨l, first, here⟩ := each.sound head
        obtain ⟨m, line, derived, rfl⟩ := ih others
        exact ⟨l ++ m, line, .cons first derived, by rw [here, List.append_assoc]⟩

/-- With a round for each token and one for the bracket, all items are found. -/
lemma complete (rounds : Rounds closing item loop) (each : Reads item g bars) (worded : g.Worded)
    (puncts : ∀ x ∈ bars, ∃ c, x = .punct c) (free : .punct closing ∉ bars) {fuel : Nat}
    {as : List α} {l : List Token} (derived : Phrase.Many g as l) (line : Nat)
    (rest : List Token) (enough : l.length < fuel) :
    loop fuel (l ++ ⟨.punct closing, line⟩ :: rest) = .ok (as, rest) := by
  induction derived generalizing fuel with
  | nil =>
    obtain ⟨fuel, rfl⟩ := Nat.exists_eq_succ_of_ne_zero (Nat.ne_zero_of_lt enough)
    exact rounds.close fuel line rest
  | @cons a as l m first others ih =>
    obtain ⟨fuel, rfl⟩ := Nat.exists_eq_succ_of_ne_zero (Nat.ne_zero_of_lt enough)
    obtain ⟨t, l, rfl, begins⟩ := worded a l first
    have clear : Clear bars (m ++ ⟨.punct closing, line⟩ :: rest) :=
      Phrase.Clears.many (worded.clears puncts) (List.Subset.refl _) as m _ others
        (clear_cons.2 free)
    have fewer : m.length < fuel := by
      simp only [List.length_append, List.length_cons] at enough
      omega
    have head := each.complete first clear
    rw [List.append_assoc, List.cons_append, rounds.next _ _ _ (begins closing)]
    rw [List.cons_append] at head
    rw [head]
    simp [bind, Except.bind, ih fewer]

/-- Rounds read a repeated phrase up to its closing bracket. -/
theorem reads (rounds : Rounds closing item loop) (each : Reads item g bars) (worded : g.Worded)
    (puncts : ∀ x ∈ bars, ∃ c, x = .punct c) (free : .punct closing ∉ bars)
    {fuel : List Token → Nat} (enough : ∀ ts, ts.length < fuel ts) :
    Reads (fun ts => loop (fuel ts) ts)
      (do let as ← Phrase.many g; Phrase.punct closing; return as) [] where
  sound := by
    intro ts as rest accepted
    obtain ⟨l, line, derived, rfl⟩ := rounds.sound each accepted
    exact ⟨l ++ [⟨.punct closing, line⟩], ⟨as, l, _, derived,
      ⟨(), _, [], ⟨line, rfl⟩, ⟨rfl, rfl⟩, rfl⟩, rfl⟩, by simp⟩
  complete := by
    rintro as _ rest ⟨as, l, _, derived, ⟨_, _, _, ⟨line, rfl⟩, ⟨rfl, rfl⟩, rfl⟩, rfl⟩ -
    have room := enough (l ++ ⟨.punct closing, line⟩ :: rest)
    simp only [List.length_append] at room
    simpa using rounds.complete each worded puncts free derived line rest (by omega)

end Rounds

end ApiCanon.GraphQl
