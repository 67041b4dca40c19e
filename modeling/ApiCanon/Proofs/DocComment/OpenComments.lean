import ApiCanon.Proofs.Source.Checks

/-!
# Comments that are left open

The reader of doc comments refuses a source whose last opening of a comment is not followed by an
end, and no other.  It looks for openings in the bare text, so that one in a string literal counts
as well: a source in which every comment is closed is refused all the same if a literal such as
`'src/**'` comes behind the last of them (`clean_iff`).

Which pieces of a source are literals is a matter of the language it is written in and is left open
here: a source is any sequence of literals and of other text.
-/

namespace ApiCanon.DocComment

/-! ## Sources with literals -/

/-- Whether a text has no quote but behind a backslash, and no backslash without a character behind
it. -/
def escapesAll (quote : Char) : List Char → Bool
  | [] => true
  | ['\\'] => false
  | '\\' :: _ :: s => escapesAll quote s
  | c :: s => c != quote && escapesAll quote s

/-- A string literal in single or in double quotes on one line. -/
structure Literal where
  quote : Char
  content : List Char
  quoted : quote = '\x27' ∨ quote = '"'
  oneLine : '\n' ∉ content ∧ '\r' ∉ content
  closed : escapesAll quote content = true

/-- A literal, or the text between two of them. -/
inductive Piece where
  | other (text : List Char)
  | literal (l : Literal)

def Piece.text : Piece → List Char
  | other text => text
  | literal l => l.quote :: l.content ++ [l.quote]

def Piece.isLiteral : Piece → Bool
  | other _ => false
  | literal _ => true

/-- The text of a source. -/
def textOfPieces (source : List Piece) : List Char := source.flatMap Piece.text

/-- Whether a place of a source is in a literal. -/
def inLiteral : List Piece → Nat → Bool
  | [], _ => false
  | p :: source, place =>
    if place < p.text.length then p.isLiteral else inLiteral source (place - p.text.length)

/-! ## Openings -/

/-- A doc comment, or what looks like one, opens at a place. -/
def OpensAt (text : List Char) (place : Nat) : Prop := ['/', '*', '*'] <+: text.drop place

/-- The end of a comment follows what opens at a place.  The stars of the opening may belong to
it. -/
def ClosedFrom (text : List Char) (place : Nat) : Prop := ['*', '/'] <:+: text.drop (place + 1)

instance (text : List Char) (place : Nat) : Decidable (OpensAt text place) :=
  inferInstanceAs (Decidable (_ <+: _))

instance (text : List Char) (place : Nat) : Decidable (ClosedFrom text place) :=
  inferInstanceAs (Decidable (_ <:+: _))

lemma opensAt_append (before after : List Char) :
    OpensAt (before ++ '/' :: '*' :: '*' :: after) before.length := by
  rw [OpensAt, List.drop_left]
  exact ⟨after, rfl⟩

lemma closedFrom_append (before after : List Char) :
    ClosedFrom (before ++ '/' :: '*' :: '*' :: after) before.length ↔
      ['*', '/'] <:+: '*' :: '*' :: after := by
  rw [ClosedFrom, ← List.drop_drop, List.drop_left]
  rfl

/-- The text around what opens at a place. -/
lemma OpensAt.exists_eq {text : List Char} {place : Nat} (opens : OpensAt text place) :
    ∃ before after, before.length = place ∧ text = before ++ '/' :: '*' :: '*' :: after := by
  obtain ⟨after, split⟩ := opens
  have inside : place ≤ text.length := by
    by_contra beyond
    rw [List.drop_of_length_le (by omega)] at split
    cases split
  refine ⟨text.take place, after, List.length_take_of_le inside, ?_⟩
  conv_lhs => rw [← List.take_append_drop place text, ← split]
  rfl

lemma OpensAt.lt_length {text : List Char} {place : Nat} (opens : OpensAt text place) :
    place < text.length := by
  obtain ⟨before, after, rfl, rfl⟩ := opens.exists_eq
  rw [List.length_append, List.length_cons]
  omega

lemma leavesOpen_iff (text : List Char) :
    LeavesOpen text ↔ ∃ place, OpensAt text place ∧ ¬ClosedFrom text place := by
  constructor
  · rintro ⟨before, after, rfl, still⟩
    rw [List.append_assoc]
    exact ⟨_, opensAt_append before after, mt (closedFrom_append before after).1 still⟩
  · rintro ⟨place, opens, still⟩
    obtain ⟨before, after, rfl, rfl⟩ := opens.exists_eq
    exact ⟨before, after, by simp, mt (closedFrom_append before after).2 still⟩

/-- The line that is named is that of the last opening. -/
lemma exists_of_unterminatedLine? {text : List Char} {line : Nat}
    (named : unterminatedLine? text = some line) :
    ∃ place, OpensAt text place ∧ ¬ClosedFrom text place ∧
      (∀ other, OpensAt text other → other ≤ place) ∧ line = lineAt text place := by
  unfold unterminatedLine? at named
  cases split : Text.splitLast? ['/', '*', '*'] text with
  | none =>
    rw [split] at named
    cases named
  | some parts =>
    obtain ⟨before, after⟩ := parts
    rw [split] at named
    obtain ⟨still, line⟩ := Option.ite_none_left_eq_some.1 named
    obtain rfl := Option.some.inj line
    have occurs : text = before ++ '/' :: '*' :: '*' :: after := by
      simpa using Text.eq_of_splitLast? split
    refine ⟨before.length, occurs ▸ opensAt_append before after, ?_, fun other opens => ?_, ?_⟩
    · rwa [occurs, closedFrom_append, ← Text.contains_iff_infix]
    · obtain ⟨front, rest, rfl, same⟩ := opens.exists_eq
      have split' : text = front ++ ['/', '*', '*'] ++ rest := by simp [same]
      have shorter := Text.length_le_of_splitLast? split split'
      have lengths := congrArg List.length (occurs.symm.trans same)
      simp only [List.length_append, List.length_cons] at lengths
      omega
    · rw [lineAt, occurs, List.take_left]

/-! ## Literals with an opening in them -/

/-- A pattern matches no further than up to a character that it does not have. -/
lemma prefix_of_prefix_append_cons {pat a b : List Char} {c : Char} (absent : c ∉ pat)
    (h : pat <+: a ++ c :: b) : pat <+: a := by
  induction pat generalizing a with
  | nil => exact List.nil_prefix
  | cons d pat ih =>
    cases a with
    | nil => exact absurd (List.cons_prefix_cons.1 h).1.symm (List.ne_of_not_mem_cons absent)
    | cons e a =>
      obtain ⟨rfl, rest⟩ := List.cons_prefix_cons.1 h
      exact List.cons_prefix_cons.2 ⟨rfl, ih (List.not_mem_of_not_mem_cons absent) rest⟩

/-- An opening that begins in a literal is in the content of one. -/
lemma exists_literal_of_opensAt {source : List Piece} {place : Nat}
    (opens : OpensAt (textOfPieces source) place) (inside : inLiteral source place = true) :
    ∃ l, Piece.literal l ∈ source ∧ ['/', '*', '*'] <:+: l.content := by
  induction source generalizing place with
  | nil => cases inside
  | cons p source ih =>
    rw [inLiteral] at inside
    rw [OpensAt, textOfPieces, List.flatMap_cons] at opens
    split_ifs at inside with here
    · cases p with
      | other text => cases inside
      | literal l =>
        -- The quotes of a literal are not part of an opening, which ends where the content does.
        have foreign : l.quote ∉ ['/', '*', '*'] := by
          rcases l.quoted with quote | quote <;> rw [quote] <;> decide
        rw [Piece.text, List.cons_append, List.cons_append, List.append_assoc] at opens
        cases place with
        | zero =>
          have same : '/' = l.quote := (List.cons_prefix_cons.1 opens).1
          exact absurd (same ▸ List.mem_cons_self) foreign
        | succ place =>
          have within : place ≤ l.content.length := by
            simp only [Piece.text, List.length_append, List.length_cons, List.length_nil] at here
            omega
          rw [List.drop_succ_cons, List.drop_append_of_le_length within] at opens
          have found : ['/', '*', '*'] <+: l.content.drop place :=
            prefix_of_prefix_append_cons foreign opens
          exact ⟨l, List.mem_cons_self, found.isInfix.trans (List.drop_suffix place _).isInfix⟩
    · rw [List.drop_append, List.drop_of_length_le (by omega), List.nil_append] at opens
      obtain ⟨l, hl, occurs⟩ := ih opens inside
      exact ⟨l, List.mem_cons_of_mem _ hl, occurs⟩

/-! ## Sources that are read -/

section

variable [Grammars]

/-- A source is read, and its check has nothing to say. -/
def Clean (s : Settings) (text : List Char) : Prop :=
  (∃ a warnings, SourceKind.jsDoc.read text s = .success a warnings) ∧
    SourceKind.jsDoc.check text = []

/-- A source is refused for a comment that is left open, by the reader and by the check. -/
def RefusedAt (s : Settings) (text : List Char) (line : Nat) : Prop :=
  SourceKind.jsDoc.read text s = .failure (.parseErrorAt line "Unterminated block comment") ∧
    SourceKind.jsDoc.check text = [.parseErrorAt line "Unterminated block comment"]

/-- A source in which every comment is closed is read. -/
lemma clean_of_not_leavesOpen (s : Settings) {text : List Char} (closed : ¬LeavesOpen text) :
    Clean s text := by
  have silent : unterminatedError? text = none := by
    rw [unterminatedError?, (unterminatedLine?_eq_none_iff text).2 closed, Option.map_none]
  rw [Clean, SourceKind.read, SourceKind.check, read, check, silent]
  exact ⟨⟨_, _, rfl⟩, rfl⟩

/-- A source with a comment left open is refused at its last opening. -/
lemma refusedAt_of_leavesOpen (s : Settings) {text : List Char} (still : LeavesOpen text) :
    ∃ place, OpensAt text place ∧ ¬ClosedFrom text place ∧
      (∀ other, OpensAt text other → other ≤ place) ∧ RefusedAt s text (lineAt text place) := by
  obtain ⟨line, named⟩ := Option.ne_none_iff_exists'.1
    (mt (unterminatedLine?_eq_none_iff text).1 (not_not.2 still))
  have complaint : unterminatedError? text =
      some (.parseErrorAt line "Unterminated block comment") := by
    rw [unterminatedError?, named, Option.map_some]
  obtain ⟨place, opens, unclosed, last, rfl⟩ := exists_of_unterminatedLine? named
  refine ⟨place, opens, unclosed, last, ?_⟩
  rw [RefusedAt, SourceKind.read, SourceKind.check, read, check, complaint]
  exact ⟨rfl, rfl⟩

lemma RefusedAt.not_clean {s : Settings} {text : List Char} {line : Nat}
    (refused : RefusedAt s text line) : ¬Clean s text := by
  rintro ⟨-, silent⟩
  cases refused.2.symm.trans silent

lemma clean_iff_not_leavesOpen (s : Settings) (text : List Char) :
    Clean s text ↔ ¬LeavesOpen text := by
  refine ⟨fun clean still => ?_, clean_of_not_leavesOpen s⟩
  obtain ⟨place, -, -, -, refused⟩ := refusedAt_of_leavesOpen s still
  exact refused.not_clean clean

/-- **A source is refused exactly if a comment is left open, and then at the last opening.**  As
openings in literals count, a source in which all the others are closed may be refused as well, but
only if some literal has an opening in it. -/
theorem clean_iff (source : List Piece) (s : Settings) :
    let text := textOfPieces source
    (Clean s text ↔ ∀ place, OpensAt text place → ClosedFrom text place) ∧
      (¬Clean s text → ∃ place, OpensAt text place ∧ ¬ClosedFrom text place ∧
        (∀ other, OpensAt text other → other ≤ place) ∧ RefusedAt s text (lineAt text place)) ∧
      ((∀ place, OpensAt text place → inLiteral source place = false → ClosedFrom text place) →
        (Clean s text ↔
          ∀ place, OpensAt text place → inLiteral source place = true → ClosedFrom text place) ∧
        ((∀ l, .literal l ∈ source → ¬['/', '*', '*'] <:+: l.content) → Clean s text)) := by
  intro text
  have clean : Clean s text ↔ ∀ place, OpensAt text place → ClosedFrom text place := by
    rw [clean_iff_not_leavesOpen, leavesOpen_iff]
    simp only [not_exists, not_and, not_not]
  have everywhere
      (outside : ∀ place, OpensAt text place → inLiteral source place = false →
        ClosedFrom text place)
      (inside : ∀ place, OpensAt text place → inLiteral source place = true →
        ClosedFrom text place) : Clean s text := by
    refine clean.2 fun place opens => ?_
    cases literal : inLiteral source place with
    | false => exact outside place opens literal
    | true => exact inside place opens literal
  refine ⟨clean, fun refused => ?_, fun outside => ⟨⟨?_, everywhere outside⟩, fun free => ?_⟩⟩
  · exact refusedAt_of_leavesOpen s (not_not.1 (mt (clean_of_not_leavesOpen s) refused))
  · exact fun h place opens _ => clean.1 h place opens
  · refine everywhere outside fun place opens inside => ?_
    obtain ⟨l, hl, occurs⟩ := exists_literal_of_opensAt opens inside
    exact absurd occurs (free l hl)

end

/-- `/** Files */ read("src/*");` -/
def listedSource : List Piece :=
  [.other "/** Files */ read(".toList,
    .literal ⟨'"', "src/*".toList, Or.inr rfl, by decide, by decide⟩, .other ");".toList]

theorem clean_listedSource : Clean (.ofConfig none) (textOfPieces listedSource) := by
  have outside : ∀ place < (textOfPieces listedSource).length,
      OpensAt (textOfPieces listedSource) place → inLiteral listedSource place = false →
        ClosedFrom (textOfPieces listedSource) place := by decide
  refine ((clean_iff listedSource (.ofConfig none)).2.2 fun place opens =>
    outside place opens.lt_length opens).2 fun l hl => ?_
  simp only [listedSource, List.mem_cons, reduceCtorEq, Piece.literal.injEq, List.not_mem_nil,
    or_false, false_or] at hl
  subst hl
  decide

/-- `const files = 'src/**';` -/
def globSource : List Piece :=
  [.other "const files = ".toList,
    .literal ⟨'\x27', "src/**".toList, Or.inl rfl, by decide, by decide⟩, .other [';']]

/-- **A source without a comment is refused for one.** -/
theorem refused_globSource :
    (∀ place, OpensAt (textOfPieces globSource) place → inLiteral globSource place = false →
      ClosedFrom (textOfPieces globSource) place) ∧
    ¬Clean (.ofConfig none) (textOfPieces globSource) := by
  have outside : ∀ place < (textOfPieces globSource).length,
      OpensAt (textOfPieces globSource) place → inLiteral globSource place = false →
        ClosedFrom (textOfPieces globSource) place := by decide
  refine ⟨fun place opens => outside place opens.lt_length opens, ?_⟩
  rw [clean_iff_not_leavesOpen, leavesOpen_iff, not_not]
  exact ⟨18, by decide, by decide⟩

end ApiCanon.DocComment
