import ApiCanon.Text.Search
import Mathlib.Data.List.Infix
import Mathlib.Tactic.Lemma
import Mathlib.Tactic.SplitIfs

/-!
# Occurrences of a pattern

A split at the first occurrence of a pattern is made whenever the pattern occurs
(`splitFirst?_eq_none_iff`), and no occurrence lies further to the left
(`length_le_of_splitFirst?`).  The split at the last occurrence is the same seen from the right.
A split at the last character of a kind leaves none of them behind it (`splitAtLast?_spec`).

A text is taken apart at the occurrences of a pattern (`occurrence_induction`), which is what
replacing them goes by.
-/

namespace ApiCanon.Text

lemma stripPrefix?_eq_some_iff {pat s r : List Char} :
    stripPrefix? pat s = some r ↔ s = pat ++ r := by
  constructor
  · exact eq_append_of_stripPrefix?
  · rintro rfl
    exact stripPrefix?_append pat r

lemma stripPrefix?_eq_none_iff {pat s : List Char} : stripPrefix? pat s = none ↔ ¬pat <+: s := by
  simp [Option.eq_none_iff_forall_ne_some, stripPrefix?_eq_some_iff, List.IsPrefix,
    @eq_comm _ s]

lemma startsWith_iff {pat s : List Char} : startsWith pat s = true ↔ pat <+: s := by
  rw [startsWith, ← Option.ne_none_iff_isSome, ne_eq, stripPrefix?_eq_none_iff, not_not]

lemma stripSuffix?_eq_some_iff {pat s r : List Char} :
    stripSuffix? pat s = some r ↔ s = r ++ pat := by
  rw [stripSuffix?, Option.map_eq_some_iff]
  constructor
  · rintro ⟨t, front, rfl⟩
    have mirrored := congrArg List.reverse (stripPrefix?_eq_some_iff.1 front)
    simpa using mirrored
  · rintro rfl
    exact ⟨r.reverse, stripPrefix?_eq_some_iff.2 (List.reverse_append ..), List.reverse_reverse r⟩

lemma stripPrefix?_of_not_mem {pat s : List Char} {c : Char} (hc : c ∈ pat) (absent : c ∉ s) :
    stripPrefix? pat s = none :=
  stripPrefix?_eq_none_iff.2 fun begins => absent (begins.subset hc)

lemma stripSuffix?_of_not_mem {pat s : List Char} {c : Char} (hc : c ∈ pat) (absent : c ∉ s) :
    stripSuffix? pat s = none := by
  rw [stripSuffix?, stripPrefix?_of_not_mem (List.mem_reverse.2 hc) (mt List.mem_reverse.1 absent)]
  rfl

lemma startsWith_of_not_mem {pat s : List Char} {c : Char} (hc : c ∈ pat) (absent : c ∉ s) :
    startsWith pat s = false := by
  rw [startsWith, stripPrefix?_of_not_mem hc absent]
  rfl

/-! ## The first occurrence -/

/-- No occurrence of the pattern lies further to the left than the first. -/
lemma length_le_of_splitFirst? {pat s a b a' b' : List Char} (h : splitFirst? pat s = some (a, b))
    (occurs : s = a' ++ pat ++ b') : a.length ≤ a'.length := by
  induction s generalizing a a' with
  | nil =>
    obtain ⟨-, rfl⟩ : stripPrefix? pat [] = some b ∧ a = [] := by simpa [splitFirst?] using h
    exact Nat.zero_le _
  | cons c s ih =>
    rw [splitFirst?] at h
    split at h
    · obtain ⟨rfl, -⟩ : [] = a ∧ _ := by simpa using h
      exact Nat.zero_le _
    · next away =>
      obtain ⟨⟨x, y⟩, split, h⟩ := Option.map_eq_some_iff.1 h
      obtain ⟨rfl, rfl⟩ := Prod.mk.inj h
      cases a' with
      | nil => exact absurd ⟨b', occurs.symm⟩ (stripPrefix?_eq_none_iff.1 away)
      | cons d a' => exact Nat.succ_le_succ (ih split (List.cons.inj occurs).2)

lemma splitFirst?_eq_none_iff {pat s : List Char} : splitFirst? pat s = none ↔ ¬pat <:+: s := by
  induction s with
  | nil => simp [splitFirst?, stripPrefix?_eq_none_iff]
  | cons c s ih =>
    rw [splitFirst?, List.infix_cons_iff, not_or, ← ih, ← stripPrefix?_eq_none_iff]
    cases stripPrefix? pat (c :: s) <;> simp

/-- A pattern is found in a text exactly where it is a part of it. -/
theorem contains_iff_infix {pat s : List Char} : contains pat s = true ↔ pat <:+: s := by
  rw [contains, ← Option.ne_none_iff_isSome, ne_eq, splitFirst?_eq_none_iff, not_not]

/-! ## The last occurrence -/

lemma eq_of_splitLast? {pat s a b : List Char} (h : splitLast? pat s = some (a, b)) :
    s = a ++ pat ++ b := by
  obtain ⟨⟨y, x⟩, split, h⟩ := Option.map_eq_some_iff.1 h
  obtain ⟨rfl, rfl⟩ := Prod.mk.inj h
  have whole := congrArg List.reverse (eq_of_splitFirst? split)
  simpa using whole

/-- No occurrence of the pattern lies further to the right than the last. -/
lemma length_le_of_splitLast? {pat s a b a' b' : List Char} (h : splitLast? pat s = some (a, b))
    (occurs : s = a' ++ pat ++ b') : b.length ≤ b'.length := by
  obtain ⟨⟨y, x⟩, split, h⟩ := Option.map_eq_some_iff.1 h
  obtain ⟨rfl, rfl⟩ := Prod.mk.inj h
  have mirrored : s.reverse = b'.reverse ++ pat.reverse ++ a'.reverse := by simp [occurs]
  simpa using length_le_of_splitFirst? split mirrored

lemma splitLast?_eq_none_iff {pat s : List Char} : splitLast? pat s = none ↔ ¬pat <:+: s := by
  rw [splitLast?, Option.map_eq_none_iff, splitFirst?_eq_none_iff, List.reverse_infix]

/-! ## Characters -/

lemma splitAtFirst?_eq_none_iff {p : Char → Bool} {s : List Char} :
    splitAtFirst? p s = none ↔ ∀ c ∈ s, p c = false := by
  induction s with
  | nil => simp [splitAtFirst?]
  | cons c s ih =>
    rw [splitAtFirst?]
    cases h : p c <;> simp [h, ih]

lemma splitAtFirst?_spec {p : Char → Bool} {s a b : List Char}
    (h : splitAtFirst? p s = some (a, b)) :
    (∃ c, p c = true ∧ s = a ++ c :: b) ∧ ∀ c ∈ a, p c = false := by
  induction s generalizing a with
  | nil => cases h
  | cons c s ih =>
    rw [splitAtFirst?] at h
    split_ifs at h with hc
    · obtain ⟨rfl, rfl⟩ := Prod.mk.inj (Option.some.inj h)
      exact ⟨⟨c, hc, rfl⟩, nofun⟩
    · obtain ⟨⟨x, y⟩, split, h⟩ := Option.map_eq_some_iff.1 h
      obtain ⟨rfl, rfl⟩ := Prod.mk.inj h
      obtain ⟨⟨d, hd, rfl⟩, none⟩ := ih split
      exact ⟨⟨d, hd, rfl⟩, List.forall_mem_cons.2 ⟨by simpa using hc, none⟩⟩

/-- A text without characters of a kind in front of one of them is split there. -/
lemma splitAtFirst?_append {p : Char → Bool} {a : List Char} (none : ∀ d ∈ a, p d = false)
    {c : Char} (hc : p c = true) (b : List Char) : splitAtFirst? p (a ++ c :: b) = some (a, b) := by
  induction a with
  | nil => rw [List.nil_append, splitAtFirst?, if_pos hc]
  | cons d a ih =>
    obtain ⟨hd, none⟩ := List.forall_mem_cons.1 none
    rw [List.cons_append, splitAtFirst?, if_neg (by rw [hd]; nofun), ih none]
    rfl

lemma splitAtFirst?_separator {c : Char} {a : List Char} (absent : c ∉ a) (b : List Char) :
    splitAtFirst? (· == c) (a ++ c :: b) = some (a, b) := by
  refine splitAtFirst?_append (p := (· == c)) (fun d hd => ?_) (beq_self_eq_true c) b
  exact beq_eq_false_iff_ne.2 fun here => absent (here ▸ hd)

/-- What ends at a separator, and has none before, can only begin a text up to its first one. -/
lemma stripPrefix?_separator {c : Char} {m a : List Char} (hm : c ∉ m) (ha : c ∉ a)
    (rest : List Char) :
    stripPrefix? (m ++ [c]) (a ++ c :: rest) = if m = a then some rest else none := by
  split_ifs with same
  · rw [stripPrefix?_eq_some_iff, same, List.append_assoc, List.singleton_append]
  · by_contra begins
    obtain ⟨r, begins⟩ := Option.ne_none_iff_exists'.1 begins
    have whole := stripPrefix?_eq_some_iff.1 begins
    rw [List.append_assoc, List.singleton_append] at whole
    have parts := (splitAtFirst?_separator ha rest).symm.trans
      ((congrArg _ whole).trans (splitAtFirst?_separator hm r))
    exact same (Prod.mk.inj (Option.some.inj parts)).1.symm

/-- **What ends at a separator occurs first where it ends the text in front of one.**  Only what
follows the occurrence is told here. -/
theorem snd_splitFirst?_separator {c : Char} {m a : List Char} (hm : c ∉ m) (ha : c ∉ a)
    (rest : List Char) :
    (splitFirst? (m ++ [c]) (a ++ c :: rest)).map Prod.snd =
      if m <:+ a then some rest else (splitFirst? (m ++ [c]) rest).map Prod.snd := by
  induction a with
  | nil =>
    have begins := stripPrefix?_separator hm List.not_mem_nil rest
    rw [List.nil_append] at begins ⊢
    rw [splitFirst?, begins]
    by_cases here : m = []
    · rw [if_pos here, if_pos (List.suffix_nil.2 here)]
      rfl
    · rw [if_neg here, if_neg (mt List.suffix_nil.1 here)]
      exact Option.map_map ..
  | cons d a ih =>
    have begins := stripPrefix?_separator hm ha rest
    have ends : m <:+ d :: a ↔ m = d :: a ∨ m <:+ a := List.suffix_cons_iff
    rw [List.cons_append] at begins ⊢
    rw [splitFirst?, begins]
    by_cases here : m = d :: a
    · rw [if_pos here, if_pos (ends.2 (Or.inl here))]
      rfl
    · have later : m <:+ d :: a ↔ m <:+ a := ends.trans (or_iff_right here)
      rw [if_neg here, if_congr later rfl rfl, ← ih (List.not_mem_of_not_mem_cons ha)]
      exact Option.map_map ..

/-- A text without characters of a kind behind one of them is split there from the right. -/
lemma splitAtLast?_append {p : Char → Bool} {b : List Char} (none : ∀ d ∈ b, p d = false) {c : Char}
    (hc : p c = true) (a : List Char) : splitAtLast? p (a ++ c :: b) = some (a, b) := by
  have mirrored : (a ++ c :: b).reverse = b.reverse ++ c :: a.reverse := by simp
  have split := splitAtFirst?_append (a := b.reverse) (fun d hd => none d (List.mem_reverse.1 hd))
    hc a.reverse
  rw [splitAtLast?, mirrored, split, Option.map_some]
  dsimp only
  rw [List.reverse_reverse, List.reverse_reverse]

lemma splitAllFrom_of_none {p : Char → Bool} {s : List Char} (none : ∀ d ∈ s, p d = false)
    (piece : List Char) : splitAllFrom p piece s = [piece.reverse ++ s] := by
  induction s generalizing piece with
  | nil => rw [splitAllFrom, List.append_nil]
  | cons d s ih =>
    obtain ⟨hd, none⟩ := List.forall_mem_cons.1 none
    rw [splitAllFrom, if_neg (by rw [hd]; nofun), ih none, List.reverse_cons, List.append_assoc]
    rfl

lemma splitAllFrom_append {p : Char → Bool} {a : List Char} (none : ∀ d ∈ a, p d = false) {c : Char}
    (hc : p c = true) (b piece : List Char) :
    splitAllFrom p piece (a ++ c :: b) = (piece.reverse ++ a) :: splitAll p b := by
  induction a generalizing piece with
  | nil =>
    rw [List.nil_append, splitAllFrom, if_pos hc, List.append_nil]
    rfl
  | cons d a ih =>
    obtain ⟨hd, none⟩ := List.forall_mem_cons.1 none
    rw [List.cons_append, splitAllFrom, if_neg (by rw [hd]; nofun), ih none, List.reverse_cons,
      List.append_assoc]
    rfl

/-- A text without characters of a kind is one piece. -/
lemma splitAll_of_none {p : Char → Bool} {s : List Char} (none : ∀ d ∈ s, p d = false) :
    splitAll p s = [s] :=
  splitAllFrom_of_none none []

/-- The first piece ends at the first character of a kind. -/
lemma splitAll_append {p : Char → Bool} {a : List Char} (none : ∀ d ∈ a, p d = false) {c : Char}
    (hc : p c = true) (b : List Char) : splitAll p (a ++ c :: b) = a :: splitAll p b :=
  splitAllFrom_append none hc b []

lemma splitAllFrom_eq_splitOnPPrepend (p : Char → Bool) (piece s : List Char) :
    splitAllFrom p piece s = List.splitOnPPrepend p s piece := by
  induction s generalizing piece with
  | nil => rfl
  | cons c s ih => rw [splitAllFrom, List.splitOnPPrepend_cons_eq_if, ih, ih]; rfl

/-- The pieces between the occurrences of a character. -/
lemma splitAll_eq_splitOn (c : Char) (s : List Char) : splitAll (· == c) s = s.splitOn c :=
  splitAllFrom_eq_splitOnPPrepend _ [] s

lemma not_mem_of_mem_splitOn {c : Char} {s p : List Char} (h : p ∈ s.splitOn c) : c ∉ p := by
  induction s generalizing p with
  | nil => rw [List.splitOn_nil, List.mem_singleton] at h; simp [h]
  | cons d s ih =>
    obtain ⟨q, qs, pieces⟩ := List.exists_cons_of_ne_nil (List.splitOn_ne_nil c s)
    rw [List.splitOn_cons_eq_if_modifyHead, pieces] at h
    rw [pieces] at ih
    split_ifs at h with here
    · rcases List.mem_cons.1 h with rfl | h
      · exact List.not_mem_nil
      · exact ih h
    · rcases List.mem_cons.1 h with rfl | h
      · have other : c ≠ d := fun same => here (beq_iff_eq.2 same.symm)
        exact List.not_mem_cons_of_ne_of_not_mem other (ih List.mem_cons_self)
      · exact ih (List.mem_cons_of_mem _ h)

/-- There is one piece more than there are separators. -/
lemma length_splitOn (c : Char) (s : List Char) : (s.splitOn c).length = s.count c + 1 := by
  induction s with
  | nil => rw [List.splitOn_nil]; rfl
  | cons d s ih =>
    rw [List.splitOn_cons_eq_if_modifyHead, List.count_cons]
    split_ifs
    · rw [List.length_cons, ih]
    · rw [List.length_modifyHead, ih]

/-- What has no separator stays in front of the first piece. -/
lemma splitOn_append_of_not_mem {c : Char} {a : List Char} (none : c ∉ a) (s : List Char) :
    (a ++ s).splitOn c = (s.splitOn c).modifyHead (a ++ ·) := by
  induction a with
  | nil => exact (congrFun List.modifyHead_id _).symm
  | cons d a ih =>
    rw [List.mem_cons, not_or] at none
    rw [List.cons_append, List.splitOn_cons_eq_if_modifyHead,
      if_neg (by simpa using Ne.symm none.1), ih none.2, List.modifyHead_modifyHead]
    rfl

/-- Texts joined by a separator are split into the pieces of each. -/
lemma splitOn_intercalate_eq_flatMap {c : Char} {ls : List (List Char)} (some : ls ≠ []) :
    ([c].intercalate ls).splitOn c = ls.flatMap (·.splitOn c) := by
  induction ls with
  | nil => exact absurd rfl some
  | cons l ls ih =>
    cases ls with
    | nil => simp
    | cons m ls =>
      have parted := List.splitOnP_append_cons (p := (· == c)) l ([c].intercalate (m :: ls))
        (beq_self_eq_true c)
      simp only [← List.splitOn_eq_splitOnP] at parted
      rw [List.intercalate_cons_cons, List.append_assoc, List.singleton_append, parted,
        ih (List.cons_ne_nil m ls)]
      rfl

/-- A separator stands in front of each piece but the first. -/
lemma infix_of_mem_splitOn {c : Char} {s p : List Char} {ps : List (List Char)}
    (pieces : s.splitOn c = p :: ps) {q : List Char} (hq : q ∈ ps) : c :: q <:+: s := by
  have joined : [c].intercalate (s.splitOn c) = s := List.intercalate_splitOn c
  rw [← joined, pieces]
  clear pieces joined
  induction ps generalizing p with
  | nil => cases hq
  | cons r ps ih =>
    rw [List.intercalate_cons_cons, List.append_assoc]
    rcases List.mem_cons.1 hq with rfl | hq
    · cases ps with
      | nil => exact ⟨p, [], by simp⟩
      | cons t ps => exact ⟨p, c :: [c].intercalate (t :: ps), by simp [List.intercalate_cons_cons]⟩
    · exact (ih hq).trans ((List.suffix_append _ _).isInfix.trans (List.suffix_append _ _).isInfix)

/-- A split at the last character of a kind lies at one of them, and none of them follows. -/
lemma splitAtLast?_spec {p : Char → Bool} {s a b : List Char}
    (h : splitAtLast? p s = some (a, b)) :
    (∃ c, p c = true ∧ s = a ++ c :: b) ∧ ∀ c ∈ b, p c = false := by
  obtain ⟨⟨y, x⟩, split, h⟩ := Option.map_eq_some_iff.1 h
  obtain ⟨rfl, rfl⟩ := Prod.mk.inj h
  obtain ⟨⟨c, hc, whole⟩, none⟩ := splitAtFirst?_spec split
  refine ⟨⟨c, hc, ?_⟩, fun d hd => none d (List.mem_reverse.1 hd)⟩
  simpa using congrArg List.reverse whole

lemma splitAtLast?_eq_none_iff {p : Char → Bool} {s : List Char} :
    splitAtLast? p s = none ↔ ∀ c ∈ s, p c = false := by
  simp [splitAtLast?, splitAtFirst?_eq_none_iff]

/-! ## Replacing -/

section Replacing

variable {pat : List Char}

lemma replaceFrom_eq_drop (pat new : List Char) (k : Nat) (s : List Char) :
    replaceFrom pat new k s = replaceAll pat new (s.drop k) := by
  induction k generalizing s with
  | zero => rfl
  | succ k ih =>
    cases s with
    | nil => rfl
    | cons c s => exact ih s

/-- An occurrence at the beginning is replaced, and what follows it goes on by itself. -/
lemma replaceAll_append (some : pat ≠ []) (new r : List Char) :
    replaceAll pat new (pat ++ r) = new ++ replaceAll pat new r := by
  obtain ⟨c, ps, rfl⟩ := List.exists_cons_of_ne_nil some
  have begins : startsWith (c :: ps) (c :: (ps ++ r)) = true := startsWith_iff.2 ⟨r, rfl⟩
  rw [List.cons_append, replaceAll, replaceFrom, if_pos begins, replaceFrom_eq_drop]
  simp

/-- A character at which no occurrence begins is kept. -/
lemma replaceAll_cons {c : Char} {s : List Char} (away : ¬pat <+: c :: s) (new : List Char) :
    replaceAll pat new (c :: s) = c :: replaceAll pat new s := by
  rw [replaceAll, replaceFrom, if_neg fun begins => away (startsWith_iff.1 begins)]
  rfl

/-- A text goes on, from the left, with an occurrence of the pattern or with a character at which
none begins. -/
lemma occurrence_induction (some : pat ≠ []) {P : List Char → Prop} (nil : P [])
    (occurs : ∀ r, P r → P (pat ++ r)) (away : ∀ c s, ¬pat <+: c :: s → P s → P (c :: s))
    (s : List Char) : P s := by
  generalize length : s.length = n
  induction n using Nat.strongRecOn generalizing s with
  | ind n ih =>
    cases s with
    | nil => exact nil
    | cons c s =>
      by_cases begins : pat <+: c :: s
      · obtain ⟨r, whole⟩ := begins
        have shorter : r.length < n := by
          rw [← length, ← whole, List.length_append]
          have := List.length_pos_iff.2 some
          omega
        exact whole ▸ occurs r (ih _ shorter r rfl)
      · exact away c s begins (ih _ (length ▸ Nat.lt_succ_self _) s rfl)

/-- Without an occurrence nothing is replaced. -/
lemma replaceAll_of_not_infix {s : List Char} (absent : ¬pat <:+: s) (new : List Char) :
    replaceAll pat new s = s := by
  induction s with
  | nil => rfl
  | cons c s ih =>
    rw [List.infix_cons_iff, not_or] at absent
    rw [replaceAll_cons absent.1, ih absent.2]

/-- A character that pattern and replacement have as often is there as often as before. -/
lemma count_replaceAll (some : pat ≠ []) {new : List Char} {c : Char}
    (same : new.count c = pat.count c) (s : List Char) :
    (replaceAll pat new s).count c = s.count c := by
  induction s using occurrence_induction some with
  | nil => rfl
  | occurs r ih => rw [replaceAll_append some, List.count_append, List.count_append, same, ih]
  | away d s away ih => rw [replaceAll_cons away, List.count_cons, List.count_cons, ih]

/-- Where the pattern occurs its replacement does. -/
lemma infix_replaceAll (some : pat ≠ []) {s : List Char} (occurs : pat <:+: s) (new : List Char) :
    new <:+: replaceAll pat new s := by
  induction s using occurrence_induction some with
  | nil => exact absurd (List.infix_nil.1 occurs) some
  | occurs r ih =>
    rw [replaceAll_append some]
    exact ⟨[], _, rfl⟩
  | away c s away ih =>
    rw [replaceAll_cons away]
    exact (ih ((List.infix_cons_iff.1 occurs).resolve_left away)).trans
      (List.suffix_cons c _).isInfix

end Replacing

end ApiCanon.Text
