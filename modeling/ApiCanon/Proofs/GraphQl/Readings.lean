import ApiCanon.Proofs.GraphQl.Grammar
import Mathlib.Data.List.ReduceOption

/-!
# Reading definitions

The readers of definitions read the grammar: each reader its rule, with the bars that the rule
leaves to what stands behind it.
-/

namespace ApiCanon.GraphQl

open Phrase Grammar

/-! ## Brackets -/

section Brackets

variable {opening closing : Char}

lemma afterClosing_of_open (depth line : Nat) (ts : List Token) :
    afterClosing opening closing depth (⟨.punct opening, line⟩ :: ts) =
      afterClosing opening closing (depth + 1) ts := by
  simp [afterClosing]

lemma afterClosing_of_close (differ : opening ≠ closing) (depth line : Nat) (ts : List Token) :
    afterClosing opening closing (depth + 1) (⟨.punct closing, line⟩ :: ts) =
      afterClosing opening closing depth ts := by
  simp [afterClosing, Ne.symm differ]

lemma afterClosing_of_other {t : Token} (opens : t.lexeme ≠ .punct opening)
    (closes : t.lexeme ≠ .punct closing) (depth : Nat) (ts : List Token) :
    afterClosing opening closing depth (t :: ts) = afterClosing opening closing depth ts := by
  obtain ⟨x, line⟩ := t
  cases x with
  | punct c =>
    have opens : c ≠ opening := fun same => opens (congrArg Lexeme.punct same)
    have closes : c ≠ closing := fun same => closes (congrArg Lexeme.punct same)
    simp [afterClosing, opens, closes]
  | name n => simp [afterClosing]
  | text s => simp [afterClosing]
  | number s => simp [afterClosing]
  | spread => simp [afterClosing]

/-- Content is passed over at any depth. -/
lemma afterClosing_of_content (differ : opening ≠ closing) {l : List Token}
    (content : Content opening closing l) (depth : Nat) (ts : List Token) :
    afterClosing opening closing depth (l ++ ts) = afterClosing opening closing depth ts := by
  induction content generalizing depth ts with
  | nil => rfl
  | other opens closes rest ih => rw [List.cons_append, afterClosing_of_other opens closes, ih]
  | nested line line' inner rest ih ih' =>
    rw [List.cons_append, afterClosing_of_open, List.append_assoc, ih, List.cons_append,
      afterClosing_of_close differ, ih']

/-- What is accepted begins with content up to a closing bracket, and goes on one level higher. -/
lemma content_of_afterClosing {depth : Nat} {ts rest : List Token}
    (accepted : afterClosing opening closing depth ts = .ok ((), rest)) :
    ∃ l line m, Content opening closing l ∧ ts = l ++ ⟨.punct closing, line⟩ :: m ∧
      match depth with
      | 0 => m = rest
      | d + 1 => afterClosing opening closing d m = .ok ((), rest) := by
  induction length : ts.length using Nat.strongRecOn generalizing ts depth with
  | ind n ih =>
    subst length
    cases ts with
    | nil => cases accepted
    | cons t r =>
      by_cases opens : t.lexeme = .punct opening
      · -- the content of the inner brackets, and then what is left of the outer content
        obtain ⟨_, line⟩ := t
        obtain rfl : _ = Lexeme.punct opening := opens
        rw [afterClosing_of_open] at accepted
        obtain ⟨l, line', m, inner, rfl, behind⟩ := ih _ (Nat.lt_succ_self _) accepted rfl
        have shorter : m.length < (⟨.punct opening, line⟩ :: (l ++ ⟨.punct closing, line'⟩ :: m) :
            List Token).length := by
          simp only [List.length_cons, List.length_append]
          omega
        obtain ⟨l', line'', m', outer, rfl, goesOn⟩ := ih _ shorter behind rfl
        exact ⟨_, line'', m', .nested line line' inner outer, by simp, goesOn⟩
      · by_cases closes : t.lexeme = .punct closing
        · obtain ⟨_, line⟩ := t
          obtain rfl : _ = Lexeme.punct closing := closes
          have differ : closing ≠ opening := fun same => opens (congrArg Lexeme.punct same)
          refine ⟨[], line, r, .nil, rfl, ?_⟩
          cases depth with
          | zero => simpa [afterClosing, differ] using accepted
          | succ d => simpa [afterClosing, differ] using accepted
        · rw [afterClosing_of_other opens closes] at accepted
          obtain ⟨l, line, m, content, rfl, goesOn⟩ := ih _ (Nat.lt_succ_self _) accepted rfl
          exact ⟨t :: l, line, m, .other opens closes content, rfl, goesOn⟩

/-- The reader behind an opening bracket reads content and the closing one. -/
lemma reads_afterClosing (differ : opening ≠ closing) :
    Reads (afterClosing opening closing 0)
      (do (⟨fun _ ts => Content opening closing ts⟩ : Phrase Unit); punct closing) [] where
  sound := by
    rintro ts ⟨⟩ rest accepted
    obtain ⟨l, line, m, content, rfl, rfl⟩ := content_of_afterClosing accepted
    exact ⟨l ++ [⟨.punct closing, line⟩], ⟨(), l, _, content, ⟨line, rfl⟩, rfl⟩, by simp⟩
  complete := by
    rintro ⟨⟩ _ rest ⟨_, l, _, content, ⟨line, rfl⟩, rfl⟩ -
    rw [List.append_assoc, afterClosing_of_content differ content]
    simp [afterClosing, Ne.symm differ]

end Brackets

/-! ## Values and directives -/

lemma map_eq_bind {α β : Type} (f : α → β) (x : Read α) :
    x.map f = x >>= fun a => .ok (f a) := by
  cases x <;> rfl

lemma reads_skipValue : Reads skipValue value [] where
  sound := by
    rintro ts ⟨⟩ rest accepted
    unfold skipValue at accepted
    split at accepted
    · next line r =>
      obtain ⟨l, hl, rfl⟩ := (reads_afterClosing (by decide)).sound accepted
      exact ⟨_, .inl ⟨(), [⟨.punct '[', line⟩], l, ⟨line, rfl⟩, hl, rfl⟩, rfl⟩
    · next line r =>
      obtain ⟨l, hl, rfl⟩ := (reads_afterClosing (by decide)).sound accepted
      exact ⟨_, .inr (.inl ⟨(), [⟨.punct '\x7b', line⟩], l, ⟨line, rfl⟩, hl, rfl⟩), rfl⟩
    · next line r =>
      rw [map_eq_bind] at accepted
      obtain ⟨⟨n, m⟩, named, made⟩ := bind_eq_ok_iff.1 accepted
      cases made
      obtain ⟨l, hl, rfl⟩ := reads_expectName.sound named
      exact ⟨_, .inr (.inr (.inl ⟨(), [⟨.punct '$', line⟩], l, ⟨line, rfl⟩,
        ⟨n, l, [], hl, ⟨rfl, rfl⟩, (List.append_nil l).symm⟩, rfl⟩)), rfl⟩
    · next n line r =>
      cases accepted
      exact ⟨_, .inr (.inr (.inr (.inl ⟨n, _, [], ⟨line, rfl⟩, ⟨rfl, rfl⟩, rfl⟩))), rfl⟩
    · next s line r =>
      cases accepted
      exact ⟨_, .inr (.inr (.inr (.inr (.inl ⟨s, _, [], ⟨line, rfl⟩, ⟨rfl, rfl⟩, rfl⟩)))), rfl⟩
    · next s line r =>
      cases accepted
      exact ⟨_, .inr (.inr (.inr (.inr (.inr ⟨s, line, rfl⟩)))), rfl⟩
    · cases accepted
  complete := by
    rintro ⟨⟩ _ rest (⟨_, _, m, ⟨line, rfl⟩, hm, rfl⟩ | ⟨_, _, m, ⟨line, rfl⟩, hm, rfl⟩ |
      ⟨_, _, _, ⟨line, rfl⟩, ⟨n, _, _, ⟨line', rfl⟩, ⟨-, rfl⟩, rfl⟩, rfl⟩ |
      ⟨n, _, _, ⟨line, rfl⟩, ⟨-, rfl⟩, rfl⟩ | ⟨s, _, _, ⟨line, rfl⟩, ⟨-, rfl⟩, rfl⟩ |
      ⟨s, line, rfl⟩) clear
    · exact (reads_afterClosing (by decide)).complete hm clear
    · exact (reads_afterClosing (by decide)).complete hm clear
    all_goals rfl

lemma reads_skipDefault : Reads skipDefault defaultValue [.punct '='] :=
  (tests_atPunct '=').reads reads_skipValue ()

/-- What stands behind an opening parenthesis is passed over, and then directives are read. -/
lemma directives_succ (depth : Nat) (ts : List Token) :
    directives (depth + 1) ts =
      afterClosing '(' ')' depth ts >>= fun r => directives 0 r.2 := by
  induction ts generalizing depth with
  | nil => rfl
  | cons t r ih =>
    obtain ⟨x, line⟩ := t
    by_cases opens : x = .punct '('
    · subst opens
      rw [afterClosing_of_open, ← ih]
      simp [directives]
    · by_cases closes : x = .punct ')'
      · subst closes
        cases depth with
        | zero => simp [directives, afterClosing, bind, Except.bind]
        | succ d =>
          rw [afterClosing_of_close (by decide), ← ih]
          simp [directives]
      · rw [afterClosing_of_other opens closes, ← ih]
        simp [directives, opens, closes]

/-- Passes over the arguments of a directive, if there are any. -/
def passArguments : Reader Unit := fun ts =>
  if atPunct '(' ts then afterClosing '(' ')' 0 ts.tail else .ok ((), ts)

lemma reads_passArguments :
    Reads passArguments (Phrase.optional () (balanced '(' ')')) [.punct '('] :=
  (tests_atPunct '(').reads (reads_afterClosing (by decide)) ()

/-- Reads a single directive. -/
def readApplied : Reader String := fun ts => do
  let ts ← expectPunct '@' ts
  let (n, ts) ← expectName ts
  let (_, ts) ← passArguments ts
  .ok (n, ts)

lemma reads_readApplied : Reads readApplied directive [.punct '('] := by
  refine .expectPunct (.andThen reads_expectName fun n => ?_)
  exact .last reads_passArguments (List.Subset.refl _) fun _ _ => rfl

/-- A directive is read, and then the others are. -/
lemma directives_of_at (line : Nat) (ts : List Token) :
    directives 0 (⟨.punct '@', line⟩ :: ts) = expectName ts >>= fun r =>
      passArguments r.2 >>= fun s => directives 0 s.2 >>= fun u => .ok (r.1 :: u.1, u.2) := by
  conv_lhs => unfold directives
  dsimp only
  rw [if_pos rfl]
  split
  · next n line' r =>
    split
    · next line'' r => rw [directives_succ, map_eq_bind, bind_assoc]; rfl
    · next plain =>
      have missed : atPunct '(' r = false := by
        refine Bool.eq_false_iff.2 fun opens => ?_
        obtain ⟨line'', r', rfl⟩ := (tests_atPunct '(' r).1 opens
        exact plain line'' r' rfl
      have passed : passArguments r = .ok ((), r) := if_neg (Bool.eq_false_iff.1 missed)
      rw [map_eq_bind]
      change _ = passArguments r >>= fun s => directives 0 s.2 >>= fun u => .ok (n :: u.1, u.2)
      rw [passed]
      rfl
  · next other =>
    rw [expectName_of_other other]
    rfl

lemma trail_directives : Trail (.punct '@') readApplied (directives 0) where
  stop := by
    intro ts clear
    cases ts with
    | nil => rfl
    | cons t r =>
      have stops : t.lexeme ≠ .punct '@' := by simpa using clear
      unfold directives
      simp [stops]
  next := by
    intro line ts
    have head : expectPunct '@' (⟨.punct '@', line⟩ :: ts) = .ok ts := rfl
    rw [directives_of_at]
    simp only [readApplied, head, bind_assoc]
    rfl

lemma reads_directives : Reads (directives 0) Grammar.directives [.punct '@', .punct '('] :=
  trail_directives.reads reads_readApplied (begins_token _ _) (by decide)

section Clears

variable {bars after : List Lexeme}

lemma clears_defaultValue (free : .punct '=' ∉ bars) (subset : bars ⊆ after) :
    defaultValue.Clears after bars :=
  .optional (.andThen (.token free)) subset

lemma clears_directives (free : .punct '@' ∉ bars) (subset : bars ⊆ after) :
    Grammar.directives.Clears after bars :=
  .many (.andThen (.token free)) subset

lemma clears_enclosed {α : Type} {opening closing : Char} {g : Phrase α}
    (free : .punct opening ∉ bars) (subset : bars ⊆ after) :
    (Phrase.optional [] (enclosed opening closing g)).Clears after bars :=
  .optional (.andThen (.token free)) subset

end Clears

/-! ## Types -/

/-- Reads the mark of non-null, if it is there. -/
def readMark (t : TypeExpr) : Reader TypeExpr := fun ts =>
  if atPunct '!' ts then .ok (.nonNull t, ts.tail) else .ok (t, ts)

lemma reads_readMark (t : TypeExpr) : Reads (readMark t) (mark t) [.punct '!'] :=
  (tests_atPunct '!').reads (Reads.pure t.nonNull []) t

lemma closeLists_zero (t : TypeExpr) (ts : List Token) : closeLists 0 t ts = readMark t ts := by
  unfold closeLists readMark
  cases atPunct '!' ts <;> rfl

lemma closeLists_succ (depth : Nat) (t : TypeExpr) (ts : List Token) :
    closeLists (depth + 1) t ts =
      readMark t ts >>= fun r => expectPunct ']' r.2 >>= closeLists depth (.list r.1) := by
  rw [closeLists, readMark]
  cases atPunct '!' ts <;> rfl

/-- A type without its mark is read, and then the lists around it are closed. -/
lemma typeExpr_of_unmarked {t : TypeExpr} {l : List Token} (unmarked : Unmarked t l)
    (depth : Nat) (rest : List Token) :
    GraphQl.typeExpr depth (l ++ rest) = closeLists depth t rest := by
  induction unmarked generalizing depth rest with
  | named n line => rfl
  | @list t u l m line line' item marked ih =>
    have closes : Clear [.punct '!'] (⟨.punct ']', line'⟩ :: rest) := by simp
    have inner := ih (depth + 1) (m ++ ⟨.punct ']', line'⟩ :: rest)
    rw [closeLists_succ, (reads_readMark t).complete marked closes] at inner
    have opened : GraphQl.typeExpr depth
        (⟨.punct '[', line⟩ :: (l ++ m ++ [⟨.punct ']', line'⟩]) ++ rest) =
      GraphQl.typeExpr (depth + 1) (l ++ (m ++ ⟨.punct ']', line'⟩ :: rest)) := by
      simp [GraphQl.typeExpr]
    rw [opened, inner]
    rfl

lemma unmarked_of_typeExpr {depth : Nat} {t : TypeExpr} {ts rest : List Token}
    (accepted : GraphQl.typeExpr depth ts = .ok (t, rest)) :
    ∃ u l m, Unmarked u l ∧ ts = l ++ m ∧ closeLists depth u m = .ok (t, rest) := by
  induction ts generalizing depth with
  | nil => cases accepted
  | cons t r ih =>
    obtain ⟨x, line⟩ := t
    by_cases opens : x = .punct '['
    · subst opens
      obtain ⟨u, l, m, unmarked, rfl, closed⟩ := ih accepted
      rw [closeLists_succ] at closed
      obtain ⟨⟨v, tail⟩, item, behind⟩ := bind_eq_ok_iff.1 closed
      obtain ⟨tail', bracket, outer⟩ := bind_eq_ok_iff.1 behind
      obtain ⟨m, marked, rfl⟩ := (reads_readMark u).sound item
      obtain ⟨line', rfl⟩ := expectPunct_eq_ok_iff.1 bracket
      exact ⟨_, _, tail', .list line line' unmarked marked, by simp, outer⟩
    · cases x with
      | name n => exact ⟨_, _, r, .named n line, rfl, accepted⟩
      | punct c =>
        have other : c ≠ '[' := fun same => opens (congrArg Lexeme.punct same)
        simp [GraphQl.typeExpr, other] at accepted
      | text s => cases accepted
      | number s => cases accepted
      | spread => cases accepted

lemma reads_typeExpr : Reads (GraphQl.typeExpr 0) Grammar.typeExpr [.punct '!'] where
  sound := by
    intro ts t rest accepted
    obtain ⟨u, l, m, unmarked, rfl, closed⟩ := unmarked_of_typeExpr accepted
    rw [closeLists_zero] at closed
    obtain ⟨m, marked, rfl⟩ := (reads_readMark u).sound closed
    exact ⟨l ++ m, ⟨u, l, m, unmarked, marked, rfl⟩, (List.append_assoc l m rest).symm⟩
  complete := by
    rintro t _ rest ⟨u, l, m, unmarked, marked, rfl⟩ clear
    rw [List.append_assoc, typeExpr_of_unmarked unmarked, closeLists_zero]
    exact (reads_readMark u).complete marked clear

/-! ## Arguments -/

/-- What may go on with a type, its default and its directives. -/
def typedBars : List Lexeme := [.punct '!', .punct '=', .punct '@', .punct '(']

lemma reads_typedName : Reads typedName typed typedBars := by
  refine .expectPunct (.bind reads_typeExpr (fun t => .bind reads_skipDefault (fun _ => ?_)
    fun _ => ?_) fun t => ?_)
  · exact .last reads_directives (by simp [typedBars]) fun _ _ => rfl
  · exact .last (clears_directives (by simp) (by simp [typedBars]))
  · exact (clears_defaultValue (by simp) (List.Subset.refl _)).bind fun _ =>
      .last (clears_directives (by simp) (by simp [typedBars]))

/-- The description as a reader, which accepts all tokens. -/
def describe : Reader (Option String) := fun ts => .ok (GraphQl.description ts)

/-- A name behind a description. -/
lemma Reads.described {β : Type} {f : Option String → Phrase β}
    {k : Option String × List Token → Read (β × List Token)} {bars : List Lexeme}
    (next : ∀ d, Reads (fun ts => k (d, ts)) (f d) bars) (named : ∀ d, (f d).Named) :
    Reads (fun ts => describe ts >>= k) (Grammar.description >>= f) bars where
  sound := by
    intro ts v rest accepted
    unfold describe GraphQl.description at accepted
    split at accepted
    · next s line r =>
      obtain ⟨l, hl, rfl⟩ := (next _).sound accepted
      exact ⟨⟨.text s, line⟩ :: l, ⟨_, [⟨.text s, line⟩], l,
        Or.inl ⟨s, _, [], ⟨line, rfl⟩, ⟨rfl, rfl⟩, rfl⟩, hl, rfl⟩, rfl⟩
    · obtain ⟨l, hl, rfl⟩ := (next _).sound accepted
      exact ⟨l, ⟨none, [], l, Or.inr ⟨rfl, rfl⟩, hl, rfl⟩, rfl⟩
  complete := by
    rintro v _ rest ⟨d, l, m, present, hm, rfl⟩ clear
    rcases present with ⟨s, _, _, ⟨line, rfl⟩, ⟨rfl, rfl⟩, rfl⟩ | ⟨rfl, rfl⟩
    · exact (next _).complete hm clear
    · obtain ⟨n, line, m, rfl⟩ := named none v m hm
      exact (next none).complete hm clear

lemma worded_described {β : Type} {f : Option String → Phrase β} (named : ∀ d, (f d).Named) :
    (Grammar.description >>= f).Worded := by
  rintro v _ ⟨d, l, m, present, hm, rfl⟩
  rcases present with ⟨s, _, _, ⟨line, rfl⟩, ⟨rfl, rfl⟩, rfl⟩ | ⟨rfl, rfl⟩
  · exact ⟨_, m, rfl, nofun⟩
  · exact (named none).worded v m hm

lemma argument_eq : GraphQl.argument = (fun ts => do
    let (d, ts) ← describe ts
    let (n, ts) ← expectName ts
    let ((t, _), ts) ← typedName ts
    pure (⟨d, n, t⟩, ts)) := rfl

lemma reads_argument : Reads GraphQl.argument Grammar.argument typedBars := by
  rw [argument_eq]
  refine .described (fun d => .andThen reads_expectName fun n => ?_) fun d => named_name.andThen
  exact .last reads_typedName (List.Subset.refl _) fun _ _ => rfl

lemma rounds_arguments : Rounds ')' GraphQl.argument argumentsFrom where
  out := nofun
  unclosed := by rintro (_ | _) r <;> nofun
  close := fun fuel line ts => rfl
  next := by
    intro fuel t ts opens
    rw [argumentsFrom, (tests_atPunct ')').of_other opens]
    rfl

/-- Items in brackets, if there are any: one round is taken for each token behind the opening
bracket. -/
lemma reads_enclosed {α : Type} {opening closing : Char} {item : Reader α}
    {loop : Nat → Reader (List α)} {g : Phrase α} {bars : List Lexeme}
    (rounds : Rounds closing item loop) (each : Reads item g bars) (worded : g.Worded)
    (puncts : ∀ x ∈ bars, ∃ c, x = .punct c) (free : .punct closing ∉ bars) :
    Reads (fun ts => if atPunct opening ts then loop (ts.length + 1) ts.tail else .ok ([], ts))
      (Phrase.optional [] (enclosed opening closing g)) [.punct opening] := by
  have inside : Reads (fun ts => loop (ts.length + 2) ts)
      (do let as ← many g; punct closing; return as) [] :=
    rounds.reads each worded puncts free fun ts => by omega
  have same : (fun ts =>
        if atPunct opening ts then loop (ts.length + 1) ts.tail else .ok ([], ts)) =
      fun ts => if atPunct opening ts then (fun r => loop (r.length + 2) r) ts.tail
        else .ok ([], ts) := by
    funext ts
    cases ts <;> rfl
  rw [same]
  exact (tests_atPunct opening).reads inside []

lemma typedBars_puncts : ∀ x ∈ typedBars, ∃ c, x = .punct c := by
  simp [typedBars]

lemma reads_arguments : Reads GraphQl.arguments Grammar.arguments [.punct '('] :=
  reads_enclosed rounds_arguments reads_argument (worded_described fun d => named_name.andThen)
    typedBars_puncts (by simp [typedBars])

end ApiCanon.GraphQl
