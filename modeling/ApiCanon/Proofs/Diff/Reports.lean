import ApiCanon.Diff.Report
import ApiCanon.Proofs.Diff.Narrowing
import ApiCanon.Proofs.Diff.Shape
import ApiCanon.Proofs.Text.Blank
import Mathlib.Data.List.Basic

/-!
# Reports of comparisons

What a reader of a report finds on its lines.  The lines are told as a list (`reportLines`), and the
report is the text of these lines, each with its line feed (`toList_markdown`): trimming takes away
the blank line behind the last bullet and nothing else.  That the last bullet itself stays as it is
rests on its description, which is never empty (`description_ne_empty`).

Read line by line, the report then shows every change once, below the heading of its kind
(`report_showsEachOnce`).
-/

namespace ApiCanon.Diff

/-! ## Every change says something -/

lemma intercalate_ne_empty {s : String} {ts : List String} (some : ts ≠ [])
    (each : ∀ t ∈ ts, t ≠ "") : s.intercalate ts ≠ "" := by
  obtain ⟨t, ts, rfl⟩ := List.exists_cons_of_ne_nil some
  have first := each t List.mem_cons_self
  cases ts with
  | nil => rwa [String.intercalate_singleton]
  | cons u ts => simp [String.intercalate_cons_cons, String.append_eq_empty_iff, first]

/-- The text of a change is made from the messages of its differences. -/
lemma rollup_says {make : ChangeKind → String → List Difference → Change} {ds : List Difference}
    {fields : List String} (speaks : Speaks fields ds) {c : Change} (h : rollup make ds = some c) :
    ∃ kind text, c = make kind text ds ∧ text ≠ "" := by
  have messages {es : List Difference} (part : es ⊆ ds) (some : ¬es.isEmpty) :
      "; ".intercalate (es.map (·.message)) ≠ "" := by
    refine intercalate_ne_empty (by simpa using some) (List.forall_mem_map.2 fun d hd => ?_)
    exact (speaks d (part hd)).2
  unfold rollup at h
  split at h
  · cases h
  · next some =>
    dsimp only at h
    split at h
    · exact ⟨_, _, (Option.some.inj h).symm, messages (List.Subset.refl ds) some⟩
    · next breaks =>
      exact ⟨_, _, (Option.some.inj h).symm, messages (List.filter_subset_self _) breaks⟩

lemma endpointDifferences_speaks (o : DiffOptions) (schemas : SortedMap Schema)
    (narrowed : List String) (old new : Endpoint) :
    Speaks ("schema" :: endpointFields) (endpointDifferences o schemas narrowed old new) := by
  refine (speaks_append _ _).2
    ⟨(compareEndpoints_speaks o old new).mono (List.subset_cons_self _ _), speaks_map ?_⟩
  simp [narrowedDifference, Difference.breakingIn, toString]

theorem description_ne_empty {o : DiffOptions} {old new : Ast} {c : Change}
    (h : c ∈ changes o old new) : c.description ≠ "" := by
  rcases List.mem_append.1 h with h | h
  · rcases List.mem_append.1 h with h | h
    · obtain ⟨e, -, h⟩ := List.mem_filterMap.1 h
      unfold endpointChange? at h
      split at h
      · obtain rfl := Option.some.inj h
        simp [toString]
      · obtain ⟨kind, text, rfl, nonempty⟩ := rollup_says (endpointDifferences_speaks o _ _ _ e) h
        exact nonempty
    · obtain ⟨e, -, h⟩ := List.mem_filterMap.1 h
      unfold removal? at h
      split at h
      · cases h
      · obtain rfl := Option.some.inj h
        simp [toString]
  · split at h
    · obtain ⟨name, -, h⟩ := List.mem_filterMap.1 h
      unfold schemaChange? at h
      split at h
      · obtain rfl := Option.some.inj h
        simp [toString]
      · obtain rfl := Option.some.inj h
        simp [toString]
      · obtain ⟨kind, text, rfl, nonempty⟩ := rollup_says (compareSchemas_speaks o _ _) h
        exact nonempty
      · cases h
    · cases h

/-! ## Lines -/

/-- The text of lines, each with its line feed. -/
def linesText (ls : List String) : List Char := ls.flatMap fun l => l.toList ++ ['\n']

lemma linesText_cons (l : String) (ls : List String) :
    linesText (l :: ls) = l.toList ++ '\n' :: linesText ls := by
  rw [linesText, List.flatMap_cons, List.append_assoc]
  rfl

lemma linesText_append (ls ms : List String) :
    linesText (ls ++ ms) = linesText ls ++ linesText ms :=
  List.flatMap_append

/-- What stands on a line: it is not broken, and no carriage return would be taken for a part of its
end. -/
def OnLine (l : String) : Prop := '\n' ∉ l.toList ∧ l.toList.getLast? ≠ some '\r'

instance (l : String) : Decidable (OnLine l) :=
  inferInstanceAs (Decidable ('\n' ∉ l.toList ∧ l.toList.getLast? ≠ some '\r'))

/-- The lines of a text are read back. -/
lemma lines_linesText {ls : List String} (whole : ∀ l ∈ ls, OnLine l) :
    (Text.lines (linesText ls)).map String.ofList = ls := by
  induction ls with
  | nil => rfl
  | cons l ls ih =>
    obtain ⟨⟨unbroken, return_⟩, others⟩ := List.forall_mem_cons.1 whole
    rw [linesText_cons, Text.lines_append unbroken return_, List.map_cons, ih others,
      String.ofList_toList]

/-- Of lines whose last one ends visibly, trimming takes away the line feed and the blank lines
behind. -/
lemma trimRight_linesText {l : String} (visible : Text.EndsVisible l.toList) (some : l ≠ "")
    (ls : List String) :
    Text.trimRight (linesText (ls ++ [l]) ++ ['\n']) = linesText ls ++ l.toList := by
  have last : Text.EndsVisible (linesText ls ++ l.toList) :=
    Text.endsVisible_append (by simpa using some) visible _
  have whole : linesText (ls ++ [l]) ++ ['\n'] = linesText ls ++ l.toList ++ ['\n', '\n'] := by
    simp [linesText]
  rw [whole, Text.trimRight_append_blanks _ (by decide), Text.trimRight,
    Text.dropRightWhile_eq_self last]

/-- Such lines end with one line feed. -/
lemma linesText_ends {l : String} (visible : Text.EndsVisible l.toList) (some : l ≠ "")
    (ls : List String) : ∃ s c, linesText (ls ++ [l]) = s ++ [c, '\n'] ∧ c ≠ '\n' := by
  obtain ⟨s, c, line⟩ := (List.eq_nil_or_concat l.toList).resolve_left (by simpa using some)
  rw [List.concat_eq_append] at line
  refine ⟨linesText ls ++ s, c, ?_, fun feed => ?_⟩
  · rw [linesText_append, linesText_cons, line]
    simp [linesText]
  · have blank := visible c (by rw [line, List.getLast?_concat]; rfl)
    rw [feed] at blank
    exact absurd blank (by decide)

/-! ## The lines of a report -/

/-- The line above the changes of a kind. -/
def heading (title : String) : String := s!"## {title}"

/-- The line of a change. -/
def bulletLine (c : Change) : String := s!"- \x60{c.locator}\x60: {c.description}"

/-- The line that counts changes. -/
def countLine (breaking added removed modified : Nat) : String :=
  s!"**{breaking + added + removed + modified} changes**: {breaking} breaking, {added} added, {removed} removed, {modified} modified"

/-- The lines of a part, with the blank line in front of it; none if there are no changes of its
kind. -/
def partLines (r : DiffResult) (p : ChangeKind × String) : List String :=
  if (r.changesOf p.1).isEmpty then []
  else "" :: heading p.2 :: "" :: (r.changesOf p.1).map bulletLine

/-- The lines of a report of changes. -/
def reportLines (r : DiffResult) : List String :=
  "# API Changes" :: "" ::
    countLine (r.count .breaking) (r.count .added) (r.count .removed) (r.count .modified) ::
    parts.flatMap (partLines r)

variable {r : DiffResult}

lemma toList_bullet (c : Change) : (bullet c).toList = (bulletLine c).toList ++ ['\n'] := by
  simp [bullet, bulletLine, toString]

/-- The blank line behind a part is the one in front of the next. -/
lemma toList_part (r : DiffResult) (p : ChangeKind × String) :
    '\n' :: (part r p).toList = linesText (partLines r p) ++ ['\n'] := by
  have bullets : (String.join ((r.changesOf p.1).map bullet)).toList =
      linesText ((r.changesOf p.1).map bulletLine) := by
    rw [String.toList_join, List.flatMap_map, linesText, List.flatMap_map]
    exact List.flatMap_congr fun c _ => toList_bullet c
  rw [part, partLines]
  split_ifs with empty
  · rfl
  · rw [String.toList_append, String.toList_append, bullets, linesText_cons, linesText_cons,
      linesText_cons]
    simp [heading, toString]

lemma toList_parts (r : DiffResult) (ps : List (ChangeKind × String)) :
    '\n' :: (String.join (ps.map (part r))).toList =
      linesText (ps.flatMap (partLines r)) ++ ['\n'] := by
  induction ps with
  | nil => rfl
  | cons p ps ih =>
    rw [List.map_cons, String.join_cons, String.toList_append, ← List.cons_append, toList_part,
      List.append_assoc, List.singleton_append, ih, List.flatMap_cons, linesText_append,
      List.append_assoc]

lemma toList_summaryLine (r : DiffResult) :
    (summaryLine r).toList =
      (countLine (r.count .breaking) (r.count .added) (r.count .removed)
        (r.count .modified)).toList ++ ['\n', '\n'] := by
  have total : r.changes.length =
      r.count .breaking + r.count .added + r.count .removed + r.count .modified := by
    rw [length_eq_counts]
    omega
  have ending (s : String) : (s ++ toString " modified\n\n").toList =
      (s ++ toString " modified").toList ++ ['\n', '\n'] := by
    rw [String.toList_append, String.toList_append, List.append_assoc]
    rfl
  -- Texts as long as these are unfolded in place, as their equations take seconds to state.
  delta summaryLine countLine
  rw [← total]
  exact ending _

/-- The parts end with a bullet, if they have any lines. -/
lemma getLast?_parts (r : DiffResult) (ps : List (ChangeKind × String)) :
    ∀ l ∈ (ps.flatMap (partLines r)).getLast?, ∃ c ∈ r.changes, l = bulletLine c := by
  induction ps using List.reverseRecOn with
  | nil => nofun
  | append_singleton ps p ih =>
    rw [List.flatMap_append, List.flatMap_singleton, partLines]
    split_ifs with empty
    · rwa [List.append_nil]
    · intro l hl
      have some : (r.changesOf p.1).map bulletLine ≠ [] := by simpa using empty
      have front : ["", heading p.2, ""] ++ (r.changesOf p.1).map bulletLine =
          "" :: heading p.2 :: "" :: (r.changesOf p.1).map bulletLine := rfl
      rw [← front, ← List.append_assoc, List.getLast?_append_of_ne_nil _ some] at hl
      obtain ⟨c, hc, rfl⟩ := List.mem_map.1 (List.mem_of_mem_getLast? hl)
      exact ⟨c, (List.mem_filter.1 hc).1, rfl⟩

lemma count_changesOf (r : DiffResult) (k : ChangeKind) (c : Change) :
    (r.changesOf k).count c = if c.kind = k then r.changes.count c else 0 := by
  rw [DiffResult.changesOf]
  split_ifs with kind
  · exact List.count_filter (beq_iff_eq.2 kind)
  · exact List.count_eq_zero_of_not_mem fun h => kind (beq_iff_eq.1 (List.mem_filter.1 h).2)

/-- Every kind has its part, and only one. -/
lemma perm_parts (r : DiffResult) : (parts.flatMap fun p => r.changesOf p.1).Perm r.changes := by
  refine List.perm_iff_count.2 fun c => ?_
  cases h : c.kind <;> simp [parts, count_changesOf, h]

/-- The lines of a report of changes end with the bullet of one of them. -/
lemma exists_last_bullet (some : r.changes ≠ []) :
    ∃ ls, ∃ c ∈ r.changes, reportLines r = ls ++ [bulletLine c] := by
  have filled : parts.flatMap (partLines r) ≠ [] := by
    intro empty
    have none : (parts.flatMap fun p => r.changesOf p.1) = [] := by
      refine List.flatMap_eq_nil_iff.2 fun p hp => ?_
      have blank := List.flatMap_eq_nil_iff.1 empty p hp
      rw [partLines] at blank
      split_ifs at blank with gone
      exact List.isEmpty_iff.1 gone
    exact some (List.nil_perm.1 (none ▸ perm_parts r))
  obtain ⟨ls, l, split⟩ := (List.eq_nil_or_concat _).resolve_left filled
  have last : l ∈ (parts.flatMap (partLines r)).getLast? := by
    rw [split, List.concat_eq_append, List.getLast?_concat]
    rfl
  obtain ⟨c, hc, rfl⟩ := getLast?_parts r parts l last
  exact ⟨_ :: _ :: _ :: ls, c, hc, by rw [reportLines, split, List.concat_eq_append]; rfl⟩

/-- The text of a change stands on one line and ends there. -/
structure OnOneLine (c : Change) : Prop where
  locator : '\n' ∉ c.locator.toList
  description : '\n' ∉ c.description.toList
  visible : Text.EndsVisible c.description.toList

instance (c : Change) : Decidable (OnOneLine c) :=
  decidable_of_iff ('\n' ∉ c.locator.toList ∧ '\n' ∉ c.description.toList ∧
      Text.EndsVisible c.description.toList)
    ⟨fun h => ⟨h.1, h.2.1, h.2.2⟩, fun h => ⟨h.locator, h.description, h.visible⟩⟩

lemma bulletLine_ne_empty (c : Change) : bulletLine c ≠ "" := by
  simp [bulletLine, toString]

lemma endsVisible_bulletLine {c : Change} (visible : Text.EndsVisible c.description.toList)
    (some : c.description ≠ "") : Text.EndsVisible (bulletLine c).toList := by
  rw [bulletLine, String.toList_append]
  exact Text.endsVisible_append (by simpa [toString] using some) visible _

lemma onLine_bulletLine {c : Change} (plain : OnOneLine c) (some : c.description ≠ "") :
    OnLine (bulletLine c) := by
  refine ⟨?_, fun return_ => ?_⟩
  · simp [bulletLine, toString, plain.locator, plain.description]
  · exact absurd (endsVisible_bulletLine plain.visible some _ return_) (by decide)

lemma onLine_heading : ∀ p ∈ parts, OnLine (heading p.2) := by decide

lemma onLine_countLine (breaking added removed modified : Nat) :
    OnLine (countLine breaking added removed modified) := by
  have digits (n : Nat) : '\n' ∉ Nat.toDigits 10 n := fun feed =>
    absurd (Nat.isDigit_of_mem_toDigits (by decide) (by decide) feed) (by decide)
  delta countLine
  refine ⟨by simp [toString, digits], ?_⟩
  rw [String.toList_append, List.getLast?_append_of_ne_nil _ (by decide)]
  decide

lemma onLine_reportLines (plain : ∀ c ∈ r.changes, OnOneLine c)
    (some : ∀ c ∈ r.changes, c.description ≠ "") : ∀ l ∈ reportLines r, OnLine l := by
  have below : ∀ p ∈ parts, ∀ l ∈ partLines r p, OnLine l := by
    intro p hp l hl
    rw [partLines] at hl
    split_ifs at hl
    · cases hl
    · rcases hl with _ | ⟨_, _ | ⟨_, _ | ⟨_, hl⟩⟩⟩
      · decide
      · exact onLine_heading p hp
      · decide
      · obtain ⟨c, hc, rfl⟩ := List.mem_map.1 hl
        have mem := (List.mem_filter.1 hc).1
        exact onLine_bulletLine (plain c mem) (some c mem)
  intro l hl
  rcases hl with _ | ⟨_, _ | ⟨_, _ | ⟨_, hl⟩⟩⟩
  · decide
  · decide
  · exact onLine_countLine _ _ _ _
  · obtain ⟨p, hp, hl⟩ := List.mem_flatMap.1 hl
    exact below p hp l hl

/-- **A report of changes is the text of its lines.** -/
theorem toList_markdown (some : r.changes ≠ [])
    (visible : ∀ c ∈ r.changes, Text.EndsVisible c.description.toList)
    (filled : ∀ c ∈ r.changes, c.description ≠ "") :
    r.markdown.toList = linesText (reportLines r) := by
  have raw : ("# API Changes\n\n" ++ summaryLine r ++ String.join (parts.map (part r))).toList =
      linesText (reportLines r) ++ ['\n'] := by
    have title : "# API Changes\n\n".toList = "# API Changes".toList ++ ['\n', '\n'] := rfl
    rw [String.toList_append, String.toList_append, toList_summaryLine, title, reportLines,
      linesText_cons, linesText_cons, linesText_cons]
    simp only [List.append_assoc, List.cons_append, List.nil_append, String.toList_empty,
      ← toList_parts]
  obtain ⟨ls, c, hc, whole⟩ := exists_last_bullet some
  have last := endsVisible_bulletLine (visible c hc) (filled c hc)
  rw [DiffResult.markdown, if_neg (by simpa [DiffResult.isEmpty] using some), Text.trimmedRight,
    String.toList_append, String.toList_ofList, raw, whole,
    trimRight_linesText last (bulletLine_ne_empty c)]
  simp [linesText]

/-! ## Reading a report -/

/-- A line that shows a change. -/
def isBullet (l : String) : Bool := Text.startsWith ['-', ' '] l.toList

/-- A line above changes. -/
def isHeading (l : String) : Bool := Text.startsWith ['#', '#', ' '] l.toList

/-- The bullets up to the next heading. -/
def bulletsBelow (ls : List String) : List String := (ls.takeWhile (!isHeading ·)).filter isBullet

/-- The headings of a report, each with the bullets below it. -/
def sections : List String → List (String × List String)
  | [] => []
  | l :: ls => if isHeading l then (l, bulletsBelow ls) :: sections ls else sections ls

lemma marks_bulletLine (c : Change) :
    isBullet (bulletLine c) = true ∧ isHeading (bulletLine c) = false := by
  simp only [isBullet, isHeading, bulletLine, String.toList_append, toString]
  exact ⟨rfl, rfl⟩

lemma marks_heading (title : String) :
    isBullet (heading title) = false ∧ isHeading (heading title) = true := by
  simp only [isBullet, isHeading, heading, String.toList_append, toString]
  exact ⟨rfl, rfl⟩

lemma marks_countLine (breaking added removed modified : Nat) :
    isBullet (countLine breaking added removed modified) = false ∧
      isHeading (countLine breaking added removed modified) = false := by
  delta countLine
  simp only [isBullet, isHeading, String.toList_append, toString]
  exact ⟨rfl, rfl⟩

lemma marks_empty : isBullet "" = false ∧ isHeading "" = false := ⟨rfl, rfl⟩

lemma filter_bullets (cs : List Change) :
    (cs.map bulletLine).filter isBullet = cs.map bulletLine :=
  List.filter_eq_self.2 (List.forall_mem_map.2 fun c _ => (marks_bulletLine c).1)

section Headless

variable {a : List String} (headless : ∀ l ∈ a, isHeading l = false)

include headless

lemma bulletsBelow_append (b : List String) :
    bulletsBelow (a ++ b) = a.filter isBullet ++ bulletsBelow b := by
  rw [bulletsBelow, List.takeWhile_append_of_pos fun l hl => by rw [headless l hl]; rfl,
    List.filter_append]
  rfl

lemma sections_append (b : List String) : sections (a ++ b) = sections b := by
  induction a with
  | nil => rfl
  | cons l a ih =>
    obtain ⟨first, others⟩ := List.forall_mem_cons.1 headless
    rw [List.cons_append, sections, first]
    exact ih others

end Headless

/-- In front of the next heading there are no bullets of another part. -/
lemma bulletsBelow_parts (r : DiffResult) (ps : List (ChangeKind × String)) :
    bulletsBelow (ps.flatMap (partLines r)) = [] := by
  induction ps with
  | nil => rfl
  | cons p ps ih =>
    rw [List.flatMap_cons, partLines]
    split_ifs
    · exact ih
    · simp [bulletsBelow, marks_empty, marks_heading]

lemma filter_isBullet_parts (r : DiffResult) (ps : List (ChangeKind × String)) :
    (ps.flatMap (partLines r)).filter isBullet =
      (ps.flatMap fun p => r.changesOf p.1).map bulletLine := by
  induction ps with
  | nil => rfl
  | cons p ps ih =>
    rw [List.flatMap_cons, List.flatMap_cons, List.filter_append, List.map_append, ih, partLines]
    split_ifs with empty
    · rw [List.isEmpty_iff.1 empty]
      rfl
    · simp [marks_empty, marks_heading, filter_bullets]

/-- The parts are read back: the headings of the kinds that occur, each with the bullets of its
changes. -/
lemma sections_parts (r : DiffResult) (ps : List (ChangeKind × String)) :
    sections (ps.flatMap (partLines r)) =
      (ps.filter fun p => !(r.changesOf p.1).isEmpty).map
        fun p => (heading p.2, (r.changesOf p.1).map bulletLine) := by
  induction ps with
  | nil => rfl
  | cons p ps ih =>
    rw [List.flatMap_cons, partLines]
    cases empty : (r.changesOf p.1).isEmpty with
    | true => simpa [empty] using ih
    | false =>
      have headless : ∀ l ∈ "" :: (r.changesOf p.1).map bulletLine, isHeading l = false :=
        List.forall_mem_cons.2
          ⟨marks_empty.2, List.forall_mem_map.2 fun c _ => (marks_bulletLine c).2⟩
      have below := bulletsBelow_append headless (ps.flatMap (partLines r))
      have behind := sections_append headless (ps.flatMap (partLines r))
      rw [bulletsBelow_parts, List.append_nil, List.filter_cons_of_neg (by simp [marks_empty]),
        filter_bullets] at below
      rw [if_neg Bool.false_ne_true, List.cons_append, List.cons_append, sections, marks_empty.2,
        if_neg Bool.false_ne_true, sections, (marks_heading p.2).2, if_pos rfl, below, behind, ih,
        List.filter_cons_of_pos (by rw [empty]; rfl)]
      rfl

/-! ## Every change once -/

/-- The lines of the report of a comparison. -/
def linesOf (r : DiffResult) : List String := (Text.lines r.markdown.toList).map String.ofList

/-- What the lines of a report show. -/
structure ShowsEachOnce (r : DiffResult) : Prop where
  /-- The groups of the four kinds hold every change, as often as it occurs. -/
  grouped : (parts.flatMap fun p => r.changesOf p.1).Perm r.changes
  /-- There is one bullet for each change. -/
  bullets : (linesOf r).filter isBullet = (parts.flatMap fun p => r.changesOf p.1).map bulletLine
  /-- A kind has a heading if there are changes of it, and below stand the bullets of these changes
  in their order. -/
  headings : sections (linesOf r) =
    (parts.filter fun p => !(r.changesOf p.1).isEmpty).map
      fun p => (heading p.2, (r.changesOf p.1).map bulletLine)
  /-- The counts, above all headings, are those of the groups. -/
  counts : r.changes ≠ [] → (linesOf r)[2]? = some (countLine (r.changesOf .breaking).length
    (r.changesOf .added).length (r.changesOf .removed).length (r.changesOf .modified).length)
  /-- There is one line feed at the end. -/
  ends : ∃ s c, r.markdown.toList = s ++ [c, '\n'] ∧ c ≠ '\n'

lemma showsEachOnce_of_silent : ShowsEachOnce ⟨[]⟩ where
  grouped := .refl []
  bullets := by decide
  headings := by decide
  counts := fun some => absurd rfl some
  ends := ⟨"# API Changes\n\nNo changes detected".toList, '.', by decide, by decide⟩

/-- **A report shows every change once.**  Where the text of each change stands on one line, the
report of a comparison has one bullet for each change, below the heading of its kind; the headings
are those of the kinds that occur, the counts are those of the bullets, and the text ends with one
line feed. -/
theorem report_showsEachOnce {o : DiffOptions} {old new : Ast} (compared : diff o old new = .ok r)
    (plain : ∀ c ∈ r.changes, OnOneLine c) : ShowsEachOnce r := by
  have filled : ∀ c ∈ r.changes, c.description ≠ "" := by
    intro c hc
    unfold diff at compared
    split at compared
    · cases compared
    · obtain rfl := Except.ok.inj compared
      exact description_ne_empty hc
  by_cases some : r.changes = []
  · obtain ⟨cs⟩ := r
    obtain rfl : cs = [] := some
    exact showsEachOnce_of_silent
  · have text := toList_markdown some (fun c hc => (plain c hc).visible) filled
    have read : linesOf r = reportLines r := by
      rw [linesOf, text]
      exact lines_linesText (onLine_reportLines plain filled)
    have headless : ∀ l ∈ ["# API Changes", "", countLine (r.count .breaking) (r.count .added)
        (r.count .removed) (r.count .modified)], isHeading l = false := by
      refine List.forall_mem_cons.2 ⟨rfl, List.forall_mem_cons.2 ⟨rfl, ?_⟩⟩
      exact List.forall_mem_singleton.2 (marks_countLine _ _ _ _).2
    refine ⟨perm_parts r, ?_, ?_, fun _ => ?_, ?_⟩
    · rw [read, reportLines, List.filter_cons_of_neg (by decide),
        List.filter_cons_of_neg (by decide),
        List.filter_cons_of_neg (by simp [marks_countLine]), filter_isBullet_parts]
    · rw [read]
      exact (sections_append headless _).trans (sections_parts r parts)
    · rw [read]
      rfl
    · obtain ⟨ls, c, hc, whole⟩ := exists_last_bullet some
      rw [text, whole]
      exact linesText_ends (endsVisible_bulletLine (plain c hc).visible (filled c hc))
        (bulletLine_ne_empty c) ls

/-- The changes where a path and a schema take the place of others. -/
def exchange : List Change :=
  [⟨.added, "/c", some .get, "endpoint GET /c added", none⟩,
    ⟨.removed, "/a", some .get, "endpoint GET /a removed", none⟩,
    ⟨.removed, "#/schemas/X", none, "schema 'X' removed", none⟩,
    ⟨.added, "#/schemas/Z", none, "schema 'Z' added", none⟩]

/-- Removals are shown before additions, whatever comes first in the comparison. -/
theorem report_showsEachOnce_exchange :
    diff .default (directory ["/a"] ["X"]) (directory ["/c"] ["Z"]) = .ok ⟨exchange⟩ ∧
      (∀ c ∈ exchange, OnOneLine c) ∧ ShowsEachOnce ⟨exchange⟩ ∧
      sections (linesOf ⟨exchange⟩) =
        [("## Removed", ["- \x60GET /a\x60: endpoint GET /a removed",
            "- \x60#/schemas/X\x60: schema 'X' removed"]),
          ("## Added", ["- \x60GET /c\x60: endpoint GET /c added",
            "- \x60#/schemas/Z\x60: schema 'Z' added"])] := by
  have compared : diff .default (directory ["/a"] ["X"]) (directory ["/c"] ["Z"]) =
      .ok ⟨exchange⟩ := by decide
  have plain : ∀ c ∈ exchange, OnOneLine c := by decide
  have shown := report_showsEachOnce compared plain
  exact ⟨compared, plain, shown, shown.headings.trans (by decide)⟩

end ApiCanon.Diff
