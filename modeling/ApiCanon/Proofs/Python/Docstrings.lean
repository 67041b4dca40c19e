import ApiCanon.Proofs.Collection.SortedMap
import ApiCanon.Proofs.Text.Blank
import ApiCanon.Proofs.Text.Search
import ApiCanon.Proofs.Text.Utf8
import ApiCanon.Python.Docstring

/-!
# Docstrings are read back

A docstring is written from a summary, paragraphs, arguments and what is returned: the summary
stands on the first line, paragraphs and sections follow behind blank lines, indented by one step,
and the entries of a section are indented by two.  Reading it gives all of this back
(`ofText_text`).

The indentation that the lines below the first have in common is one step, whatever is written, so
that taking it away leaves the headers of sections, and paragraphs, at the margin and all entries
behind it (`dedent_text`).  That is how entries that look like headers are told from them.
-/

namespace ApiCanon

open Text (isBlank allBlank trim trimLeft trimRight)

namespace Python.Docstring

/-! ## Written docstrings -/

/-- One step of indentation. -/
def step : List Char := [' ', ' ', ' ', ' ']

/-- What a docstring is written from. -/
structure Content where
  summary : List Char
  paragraphs : List (List Char)
  arguments : List (List Char × List Char)
  returns : Option (List Char)

/-- A header and the entries below it, behind a blank line; nothing without entries. -/
def sectionLines (header : String) (entries : List (List Char)) : List (List Char) :=
  if entries = [] then [] else [] :: header.toList :: entries.map (step ++ ·)

/-- The entry of an argument. -/
def argumentEntry (a : List Char × List Char) : List Char := a.1 ++ ':' :: ' ' :: a.2

/-- A line that is indented, unless it is empty. -/
def indented (line : List Char) : List Char := if line = [] then [] else step ++ line

namespace Content

variable (d : Content)

/-- The lines below the first, as far as they are indented differently. -/
def body : List (List Char) :=
  (d.paragraphs.flatMap fun p => [[], p]) ++
    sectionLines "Args:" (d.arguments.map argumentEntry) ++ sectionLines "Returns:" d.returns.toList

/-- The text of a docstring. -/
def text : String := String.ofList (['\n'].intercalate (d.summary :: d.body.map indented))

end Content

/-- The headers of sections. -/
def headers : List String :=
  ["Args", "Arguments", "Parameters", "Returns", "Return", "Raises", "Yields", "Example",
    "Examples", "Note", "Notes"]

/-- A text on one line, with something on it and no blanks around. -/
structure OneLine (s : List Char) : Prop where
  filled : s ≠ []
  unbroken : '\n' ∉ s
  trimmed : trim s = s

instance (s : List Char) : Decidable (OneLine s) :=
  decidable_of_iff (s ≠ [] ∧ '\n' ∉ s ∧ trim s = s)
    ⟨fun h => ⟨h.1, h.2.1, h.2.2⟩, fun h => ⟨h.filled, h.unbroken, h.trimmed⟩⟩

/-- Whether a text may stand at the margin: it is no header. -/
def Unheaded (s : List Char) : Prop := ∀ h ∈ headers, s ≠ h.toList ++ [':']

instance (s : List Char) : Decidable (Unheaded s) :=
  inferInstanceAs (Decidable (∀ h ∈ headers, s ≠ h.toList ++ [':']))

/-- The contents that can be written. -/
structure Content.Proper (d : Content) : Prop where
  summary : OneLine d.summary ∧ Unheaded d.summary
  paragraphs : ∀ p ∈ d.paragraphs, OneLine p ∧ Unheaded p
  names : ∀ a ∈ d.arguments, a.1 ≠ [] ∧ ∀ c ∈ a.1, isBlank c = false ∧ c ≠ ':' ∧ c ≠ '('
  descriptions : ∀ a ∈ d.arguments, OneLine a.2
  distinct : (d.arguments.map Prod.fst).Nodup
  returns : ∀ t ∈ d.returns, OneLine t
  /-- What stands in front of a colon is more than one word. -/
  untyped : ∀ t ∈ d.returns, ':' ∈ t → ' ' ∈ trim (t.takeWhile (· != ':'))

/-! ## Indentation -/

lemma indentOf_indented {l : List Char} (some : l ≠ []) :
    indentOf (indented l) = 4 + indentOf l := by
  rw [indented, if_neg some, indentOf, List.takeWhile_append_of_pos (List.all_eq_true.1 rfl),
    utf8Length_append]
  rfl

lemma not_allBlank_indented {l : List Char} (visible : allBlank l = false) :
    allBlank (indented l) = false := by
  have some : l ≠ [] := by
    rintro rfl
    cases visible
  rw [indented, if_neg some, allBlank, List.all_append, ← allBlank.eq_1 l, visible, Bool.and_false]

/-- One line at the margin makes the common indentation one step. -/
lemma commonIndent_indented {ls : List (List Char)} {m : List Char} (hm : m ∈ ls)
    (margin : ∃ c, m.head? = some c ∧ isBlank c = false) : commonIndent (ls.map indented) = 4 := by
  obtain ⟨c, front, visible⟩ := margin
  obtain ⟨r, rfl⟩ := List.head?_eq_some_iff.1 front
  have least : (((ls.map indented).filter fun l => !allBlank l).map indentOf).min? = some 4 := by
    refine List.min?_eq_some_iff.2 ⟨List.mem_map.2 ⟨indented (c :: r), ?_, ?_⟩, ?_⟩
    · have shown : allBlank (c :: r) = false := by rw [allBlank, List.all_cons, visible]; rfl
      refine List.mem_filter.2 ⟨List.mem_map_of_mem hm, ?_⟩
      rw [not_allBlank_indented shown]
      rfl
    · rw [indentOf_indented (List.cons_ne_nil c r), indentOf,
        List.takeWhile_cons_of_neg (by simp [visible])]
      rfl
    · intro n hn
      obtain ⟨l, hl, rfl⟩ := List.mem_map.1 hn
      obtain ⟨hl, shown⟩ := List.mem_filter.1 hl
      obtain ⟨k, -, rfl⟩ := List.mem_map.1 hl
      have some : k ≠ [] := by
        rintro rfl
        cases shown
      rw [indentOf_indented some]
      exact Nat.le_add_right 4 _
  rw [commonIndent, least]
  rfl

/-- Taking one step of indentation away gives the line again. -/
lemma outdent_indented {l : List Char} (visible : Text.EndsVisible l) :
    trimRight ((dropBytes? 4 (indented l)).getD (trimLeft (indented l))) = l := by
  by_cases empty : l = []
  · rw [empty]
    rfl
  · have dropped : dropBytes? 4 (step ++ l) = some l := by
      simp only [step, List.cons_append, List.nil_append]
      rw [dropBytes?, if_pos (by decide), dropBytes?, if_pos (by decide), dropBytes?,
        if_pos (by decide), dropBytes?, if_pos (by decide)]
      all_goals first | exact dropBytes?.eq_1 l | decide
    rw [indented, if_neg empty, dropped]
    exact Text.dropRightWhile_eq_self visible

/-! ## Lines of the text -/

lemma OneLine.exists_head {s : List Char} (h : OneLine s) :
    ∃ c, s.head? = some c ∧ isBlank c = false := by
  obtain ⟨c, r, rfl⟩ := List.exists_cons_of_ne_nil h.filled
  exact ⟨c, rfl, Text.visible_head_of_trim h.trimmed c rfl⟩

lemma OneLine.endsVisible {s : List Char} (h : OneLine s) : Text.EndsVisible s :=
  h.trimmed ▸ Text.endsVisible_trim s

lemma endsVisible_indented {l : List Char} (h : Text.EndsVisible l) :
    Text.EndsVisible (indented l) := by
  rw [indented]
  split_ifs with empty
  · nofun
  · exact Text.endsVisible_append empty h step

/-- A list of lines that does not end with an empty one. -/
def Closed (ls : List (List Char)) : Prop := ls.getLast? ≠ some []

lemma Closed.append {a b : List (List Char)} (ha : Closed a) (hb : Closed b) : Closed (a ++ b) := by
  rw [Closed, List.getLast?_append]
  cases last : b.getLast? with
  | none => exact ha
  | some l => rwa [Closed, last] at hb

lemma closed_of_forall {ls : List (List Char)} (some : ∀ l ∈ ls, l ≠ []) : Closed ls :=
  fun last => some [] (List.mem_of_getLast? last) rfl

lemma closed_sectionLines {header : String} (named : header.toList ≠ [])
    (entries : List (List Char)) : Closed (sectionLines header entries) := by
  rw [sectionLines]
  split_ifs
  · nofun
  · rw [Closed, List.getLast?_cons_cons]
    refine closed_of_forall (List.forall_mem_cons.2 ⟨named, fun l hl => ?_⟩)
    obtain ⟨e, -, rfl⟩ := List.mem_map.1 hl
    exact List.cons_ne_nil _ _

/-- The lines of a section are an empty one, a header and entries that are indented. -/
lemma of_mem_sectionLines {header : String} {entries : List (List Char)} {l : List Char}
    (h : l ∈ sectionLines header entries) :
    l = [] ∨ l = header.toList ∨ ∃ e ∈ entries, l = step ++ e := by
  rw [sectionLines] at h
  split_ifs at h
  · cases h
  · rcases List.mem_cons.1 h with h | h
    · exact .inl h
    rcases List.mem_cons.1 h with h | h
    · exact .inr (.inl h)
    · obtain ⟨e, he, rfl⟩ := List.mem_map.1 h
      exact .inr (.inr ⟨e, he, rfl⟩)

namespace Content

variable {d : Content} (proper : d.Proper)

include proper

lemma Proper.entries :
    (∀ e ∈ d.arguments.map argumentEntry, e ≠ [] ∧ '\n' ∉ e ∧ Text.EndsVisible e) ∧
    ∀ e ∈ d.returns.toList, e ≠ [] ∧ '\n' ∉ e ∧ Text.EndsVisible e := by
  constructor
  · intro e he
    obtain ⟨a, ha, rfl⟩ := List.mem_map.1 he
    have text := proper.descriptions a ha
    have feed : '\n' ∉ a.1 := fun h => absurd ((proper.names a ha).2 _ h).1 (by decide)
    refine ⟨by simp [argumentEntry], by simpa [argumentEntry, feed] using text.unbroken, ?_⟩
    exact Text.endsVisible_append (List.cons_ne_nil _ _)
      (Text.endsVisible_append text.filled text.endsVisible [':', ' ']) a.1
  · intro e he
    have text := proper.returns e (Option.mem_toList.1 he)
    exact ⟨text.filled, text.unbroken, text.endsVisible⟩

/-- Lines below the first hold no line feed, and no blank at the end. -/
lemma Proper.whole : ∀ l ∈ d.body, '\n' ∉ l ∧ Text.EndsVisible l := by
  have sections {header : String} (plain : '\n' ∉ header.toList ∧ Text.EndsVisible header.toList)
      {entries : List (List Char)} (each : ∀ e ∈ entries, e ≠ [] ∧ '\n' ∉ e ∧ Text.EndsVisible e) :
      ∀ l ∈ sectionLines header entries, '\n' ∉ l ∧ Text.EndsVisible l := by
    intro l hl
    rcases of_mem_sectionLines hl with rfl | rfl | ⟨e, he, rfl⟩
    · exact ⟨List.not_mem_nil, nofun⟩
    · exact plain
    · obtain ⟨some, unbroken, ends⟩ := each e he
      exact ⟨by simpa [step] using unbroken, Text.endsVisible_append some ends step⟩
  refine List.forall_mem_append.2 ⟨List.forall_mem_append.2 ⟨fun l hl => ?_, ?_⟩, ?_⟩
  · obtain ⟨p, hp, hl⟩ := List.mem_flatMap.1 hl
    rcases List.mem_cons.1 hl with rfl | hl
    · exact ⟨List.not_mem_nil, nofun⟩
    · rw [List.mem_singleton.1 hl]
      exact ⟨(proper.paragraphs p hp).1.unbroken, (proper.paragraphs p hp).1.endsVisible⟩
  · exact sections ⟨by decide, by rintro c ⟨⟩; rfl⟩ proper.entries.1
  · exact sections ⟨by decide, by rintro c ⟨⟩; rfl⟩ proper.entries.2

/-- A paragraph or a header stands at the margin, if there is anything below the first line. -/
lemma Proper.margin (some : d.body ≠ []) :
    ∃ m ∈ d.body, ∃ c, m.head? = .some c ∧ isBlank c = false := by
  have header {h : String} (first : ∃ c, h.toList.head? = .some c ∧ isBlank c = false)
      {entries : List (List Char)} (there : sectionLines h entries ≠ []) :
      ∃ m ∈ sectionLines h entries, ∃ c, m.head? = .some c ∧ isBlank c = false := by
    rw [sectionLines] at there ⊢
    split_ifs at there ⊢
    · exact absurd rfl there
    · exact ⟨h.toList, List.mem_cons_of_mem _ List.mem_cons_self, first⟩
  have widen {a b : List (List Char)} (h : ∃ m ∈ a, ∃ c, m.head? = .some c ∧ isBlank c = false)
      (part : a ⊆ b) : ∃ m ∈ b, ∃ c, m.head? = .some c ∧ isBlank c = false :=
    h.imp fun m hm => ⟨part hm.1, hm.2⟩
  by_cases returned : sectionLines "Returns:" d.returns.toList = []
  · by_cases arguments : sectionLines "Args:" (d.arguments.map argumentEntry) = []
    · cases paragraphs : d.paragraphs with
      | nil => simp [body, paragraphs, arguments, returned] at some
      | cons p ps =>
        have hp : p ∈ d.paragraphs := paragraphs ▸ List.mem_cons_self
        refine ⟨p, ?_, (proper.paragraphs p hp).1.exists_head⟩
        simp [body, paragraphs]
    · exact widen (header ⟨'A', rfl, by decide⟩ arguments)
        fun l hl => List.mem_append_left _ (List.mem_append_right _ hl)
  · exact widen (header ⟨'R', rfl, by decide⟩ returned) fun l hl => List.mem_append_right _ hl

lemma Proper.closed : Closed d.body := by
  have paragraphs : Closed (d.paragraphs.flatMap fun p => [[], p]) := by
    have filled : ∀ p ∈ d.paragraphs, p ≠ [] := fun p hp => (proper.paragraphs p hp).1.filled
    generalize d.paragraphs = ps at filled
    induction ps with
    | nil => nofun
    | cons p ps ih =>
      obtain ⟨first, others⟩ := List.forall_mem_cons.1 filled
      rw [List.flatMap_cons]
      exact .append (fun last => first (by simpa using last)) (ih others)
  exact (paragraphs.append (closed_sectionLines (by decide) _)).append
    (closed_sectionLines (by decide) _)

/-- The lines of a docstring are the summary and those below it, without the common indentation. -/
lemma Proper.dedent_text : dedent d.text.toList = d.summary :: d.body := by
  have whole : ∀ l ∈ d.summary :: d.body.map indented, '\n' ∉ l ∧ l.getLast? ≠ some '\r' := by
    have visible {l : List Char} (h : Text.EndsVisible l) : l.getLast? ≠ some '\r' :=
      fun last => absurd (h _ last) (by decide)
    refine List.forall_mem_cons.2
      ⟨⟨proper.summary.1.unbroken, visible proper.summary.1.endsVisible⟩, fun l hl => ?_⟩
    obtain ⟨m, hm, rfl⟩ := List.mem_map.1 hl
    obtain ⟨unbroken, ends⟩ := proper.whole m hm
    refine ⟨?_, visible (endsVisible_indented ends)⟩
    rw [indented]
    split_ifs
    · exact List.not_mem_nil
    · simpa [step] using unbroken
  have last : (d.summary :: d.body.map indented).getLast? ≠ some [] := by
    have closed := proper.closed
    rw [List.getLast?_cons, List.getLast?_map]
    rw [Closed] at closed
    cases last : d.body.getLast? with
    | none => simpa using proper.summary.1.filled
    | some l =>
      rw [last] at closed
      simpa [indented, step] using closed
  rw [Content.text, String.toList_ofList, dedent, Text.lines_intercalate whole last]
  dsimp only
  rw [proper.summary.1.trimmed, List.map_map]
  refine congrArg (d.summary :: ·) ?_
  by_cases empty : d.body = []
  · rw [empty]
    rfl
  · obtain ⟨m, hm, margin⟩ := proper.margin empty
    rw [commonIndent_indented hm margin]
    refine (List.map_congr_left fun l hl => ?_).trans (List.map_id d.body)
    exact outdent_indented (proper.whole l hl).2

end Content

/-! ## Reading the lines -/

lemma headed?_eq_none {h : String} (other : h ∉ headers) : headed? h = none := by
  unfold headed?
  split <;> simp_all [headers]

/-- A line opens no section if it is no header. -/
lemma opened?_of_unheaded {s : List Char} (trimmed : trim s = s) (plain : Unheaded s) :
    opened? s = none := by
  rw [opened?, trimmed]
  split_ifs
  · rfl
  · cases header : Text.stripSuffix? [':'] s with
    | none => rfl
    | some h =>
      refine headed?_eq_none fun known => plain _ known ?_
      rw [String.toList_ofList, Text.stripSuffix?_eq_some_iff.1 header]

/-- A line that is indented opens no section. -/
lemma opened?_step (l : List Char) : opened? (step ++ l) = none := rfl

namespace State

variable {s : State}

lemma add_empty_of_paragraphs (h : s.sec = .paragraphs) :
    s.add [] = { s with paragraphs := [] :: s.paragraphs } := by
  rw [add, opened?_of_unheaded rfl (by simp [Unheaded])]
  simp [h]

lemma add_empty_of_arguments (h : s.sec = .arguments) : s.add [] = s := by
  rw [add, opened?_of_unheaded rfl (by simp [Unheaded])]
  simp [h]

lemma add_text (h : s.sec = .paragraphs) {l : List Char} (line : OneLine l) (plain : Unheaded l) :
    s.add l = { s with paragraphs := addText l s.paragraphs } := by
  rw [add, opened?_of_unheaded line.trimmed plain, line.trimmed]
  simp [h, line.filled]

lemma add_header {l : List Char} {t : Section} (h : opened? l = some t) :
    s.add l = { s with sec := t, current? := none } := by
  rw [add, h]

lemma add_argument (h : s.sec = .arguments) {a : List Char × List Char} (named : a.1 ≠ [])
    (name : ∀ c ∈ a.1, isBlank c = false ∧ c ≠ ':' ∧ c ≠ '(') (text : OneLine a.2) :
    s.add (step ++ argumentEntry a) =
      { s with
        arguments := s.arguments.insert (String.ofList a.1) (String.ofList a.2)
        current? := some (String.ofList a.1) } := by
  have trimmed : trim (step ++ argumentEntry a) = argumentEntry a := by
    rw [Text.trim_blanks_append (by decide)]
    refine Text.trim_eq_self ?_ ?_
    · rw [argumentEntry, List.head?_append_of_ne_nil _ named]
      exact fun c hc => (name c (List.mem_of_mem_head? hc)).1
    · exact Text.endsVisible_append (List.cons_ne_nil _ _)
        (Text.endsVisible_append text.filled text.endsVisible [':', ' ']) a.1
  have split : Text.splitAtFirst? (· == ':') (argumentEntry a) = some (a.1, ' ' :: a.2) :=
    Text.splitAtFirst?_append (fun c hc => beq_false_of_ne (name c hc).2.1) (by rfl) _
  have sentence : a.1.contains ' ' = false :=
    Bool.eq_false_iff.2 fun h => absurd (name _ (List.contains_iff_mem.1 h)).1 (by decide)
  have bare : a.1.takeWhile (· != '(') = a.1 :=
    List.takeWhile_eq_self_iff.2 fun c hc => bne_iff_ne.2 (name c hc).2.2
  have spaced : trim (' ' :: a.2) = a.2 :=
    (Text.trim_blanks_append (b := [' ']) rfl a.2).trans text.trimmed
  have parsed : argument? (argumentEntry a) = some (a.1, a.2) := by
    rw [argument?, split]
    dsimp only
    rw [sentence, bare, spaced, Text.trim_eq_self_of_visible fun c hc => (name c hc).1]
    rfl
  have filled : (argumentEntry a).isEmpty = false := by simp [argumentEntry]
  rw [add, opened?_step, trimmed]
  simp only [h, filled, parsed, Bool.false_eq_true, if_false]

lemma add_returned (h : s.sec = .returns) {t : List Char} (line : OneLine t) :
    s.add (step ++ t) = { s with returns := s.returns ++ [t] } := by
  have trimmed : trim (step ++ t) = t := by rw [Text.trim_blanks_append (by decide), line.trimmed]
  rw [add, opened?_step, trimmed]
  simp [h, line.filled]

/-! ### Runs -/

lemma foldl_paragraphs (h : s.sec = .paragraphs) {ps : List (List Char)}
    (lines : ∀ p ∈ ps, OneLine p ∧ Unheaded p) :
    (ps.flatMap fun p => [[], p]).foldl add s =
      { s with paragraphs := ps.reverse ++ s.paragraphs } := by
  induction ps generalizing s with
  | nil => rfl
  | cons p ps ih =>
    obtain ⟨⟨line, plain⟩, others⟩ := List.forall_mem_cons.1 lines
    have first : (s.add []).add p = { s with paragraphs := p :: s.paragraphs } := by
      rw [add_empty_of_paragraphs h,
        add_text (s := { s with paragraphs := [] :: s.paragraphs }) h line plain]
      rfl
    rw [List.flatMap_cons, List.cons_append, List.singleton_append, List.foldl_cons,
      List.foldl_cons, first, ih (s := { s with paragraphs := p :: s.paragraphs }) h others,
      List.reverse_cons, List.append_assoc]
    rfl

lemma foldl_arguments (h : s.sec = .arguments) {as : List (List Char × List Char)}
    (names : ∀ a ∈ as, a.1 ≠ [] ∧ ∀ c ∈ a.1, isBlank c = false ∧ c ≠ ':' ∧ c ≠ '(')
    (texts : ∀ a ∈ as, OneLine a.2) :
    ∃ current, (as.map fun a => step ++ argumentEntry a).foldl add s =
      { s with
        arguments := as.foldl (fun m a => m.insert (String.ofList a.1) (String.ofList a.2))
          s.arguments
        current? := current } := by
  induction as generalizing s with
  | nil => exact ⟨_, rfl⟩
  | cons a as ih =>
    obtain ⟨⟨named, name⟩, names⟩ := List.forall_mem_cons.1 names
    obtain ⟨text, texts⟩ := List.forall_mem_cons.1 texts
    rw [List.map_cons, List.foldl_cons, add_argument h named name text]
    exact ih h names texts

/-- What a docstring has been read to say so far: its paragraphs but the empty ones, the last one
first, and its arguments.  The next section may begin. -/
structure Says (s : State) (paragraphs : List (List Char)) (arguments : SortedMap String) :
    Prop where
  place : s.sec = .paragraphs ∨ s.sec = .arguments
  paragraphs : s.paragraphs.filter (fun p => !p.isEmpty) = paragraphs
  arguments : s.arguments = arguments

/-- An empty line makes an empty paragraph at most. -/
lemma Says.add_empty {ps : List (List Char)} {m : SortedMap String} (h : s.Says ps m) :
    (s.add []).Says ps m ∧ (s.add []).returns = s.returns := by
  rcases h.place with place | place
  · rw [add_empty_of_paragraphs place]
    exact ⟨⟨.inl place, h.paragraphs, h.arguments⟩, rfl⟩
  · rw [add_empty_of_arguments place]
    exact ⟨h, rfl⟩

lemma Says.foldl_arguments {ps : List (List Char)} (h : s.Says ps .empty)
    {as : List (List Char × List Char)}
    (names : ∀ a ∈ as, a.1 ≠ [] ∧ ∀ c ∈ a.1, isBlank c = false ∧ c ≠ ':' ∧ c ≠ '(')
    (texts : ∀ a ∈ as, OneLine a.2) :
    ((sectionLines "Args:" (as.map argumentEntry)).foldl add s).Says ps
        (.ofList (as.map fun a => (String.ofList a.1, String.ofList a.2))) ∧
      ((sectionLines "Args:" (as.map argumentEntry)).foldl add s).returns = s.returns := by
  rw [sectionLines]
  split_ifs with without
  · rw [List.map_eq_nil_iff.1 without]
    exact ⟨h, rfl⟩
  · have opened : opened? "Args:".toList = some .arguments := by decide
    obtain ⟨blank, same⟩ := h.add_empty
    rw [List.foldl_cons, List.foldl_cons, add_header opened, List.map_map]
    obtain ⟨current, run⟩ := State.foldl_arguments
      (s := { s.add [] with sec := .arguments, current? := none }) rfl names texts
    rw [Function.comp_def, run]
    refine ⟨⟨.inr rfl, blank.paragraphs, ?_⟩, same⟩
    rw [SortedMap.ofList, List.foldl_map]
    exact congrArg (as.foldl _) blank.arguments

lemma Says.foldl_returns {ps : List (List Char)} {m : SortedMap String} (h : s.Says ps m)
    (none : s.returns = []) {t? : Option (List Char)} (lines : ∀ t ∈ t?, OneLine t) :
    ((sectionLines "Returns:" t?.toList).foldl add s).paragraphs.filter (fun p => !p.isEmpty) = ps ∧
      ((sectionLines "Returns:" t?.toList).foldl add s).arguments = m ∧
      ((sectionLines "Returns:" t?.toList).foldl add s).returns = t?.toList := by
  cases t? with
  | none => exact ⟨h.paragraphs, h.arguments, none⟩
  | some t =>
    have opened : opened? "Returns:".toList = some .returns := by decide
    obtain ⟨blank, same⟩ := h.add_empty
    have run : (sectionLines "Returns:" (some t).toList).foldl add s =
        { s.add [] with sec := .returns, current? := .none, returns := [t] } := by
      rw [Option.toList_some, sectionLines, if_neg (List.cons_ne_nil _ _), List.map_singleton,
        List.foldl_cons, List.foldl_cons, List.foldl_cons, add_header opened,
        add_returned (s := { s.add [] with sec := .returns, current? := .none }) rfl (lines t rfl)]
      simp [same, none]
    rw [run]
    exact ⟨blank.paragraphs, blank.arguments, rfl⟩

end State

/-- A text is returned as it is if more than one word stands in front of its first colon. -/
lemma returned_eq_self {t : List Char} (untyped : ':' ∈ t → ' ' ∈ trim (t.takeWhile (· != ':'))) :
    returned t = t := by
  rw [returned]
  split
  · next head rest found =>
    obtain ⟨⟨c, colon, whole⟩, none⟩ := Text.splitAtFirst?_spec found
    obtain rfl := beq_iff_eq.1 colon
    have front : t.takeWhile (· != ':') = head := by
      rw [whole, List.takeWhile_append_of_pos fun c hc => by simpa using none c hc,
        List.takeWhile_cons_of_neg (by simp), List.append_nil]
    have words := untyped (by rw [whole]; simp)
    rw [front] at words
    exact if_pos (List.contains_iff_mem.2 words)
  · rfl

/-- Texts that are not empty are empty together only if there are none. -/
lemma intercalate_eq_nil_iff {ps : List (List Char)} (filled : ∀ p ∈ ps, p ≠ []) :
    ['\n', '\n'].intercalate ps = [] ↔ ps = [] := by
  cases ps with
  | nil => simp
  | cons p ps =>
    have some : p ≠ [] := filled p List.mem_cons_self
    cases ps <;> simp [List.intercalate_cons_cons, some]

lemma distinct_names {d : Content} (proper : d.Proper) :
    ((d.arguments.map fun a => (String.ofList a.1, String.ofList a.2)).map (·.1)).Nodup := by
  have names := proper.distinct.map fun _ _ => String.ofList_injective
  rwa [List.map_map] at names ⊢

/-- What is read of a written docstring. -/
lemma ofText_eq {d : Content} (proper : d.Proper) : ofText d.text =
    { summary := some (String.ofList d.summary)
      description := optional (['\n', '\n'].intercalate d.paragraphs)
      arguments := .ofList (d.arguments.map fun a => (String.ofList a.1, String.ofList a.2))
      returns := optional (returned ([' '].intercalate d.returns.toList)) } := by
  let start : State := ⟨.paragraphs, [[]], .empty, none, []⟩
  have summary : start.add d.summary = { start with paragraphs := [d.summary] } :=
    State.add_text rfl proper.summary.1 proper.summary.2
  have paragraphs := State.foldl_paragraphs (s := { start with paragraphs := [d.summary] }) rfl
    proper.paragraphs
  have filled : ∀ p ∈ d.paragraphs.reverse ++ [d.summary], (!p.isEmpty) = true := by
    refine List.forall_mem_append.2 ⟨fun p hp => ?_, List.forall_mem_singleton.2 ?_⟩
    · simpa using (proper.paragraphs p (List.mem_reverse.1 hp)).1.filled
    · simpa using proper.summary.1.filled
  have said : State.Says { start with paragraphs := d.paragraphs.reverse ++ [d.summary] }
      (d.paragraphs.reverse ++ [d.summary]) .empty :=
    ⟨.inl rfl, List.filter_eq_self.2 filled, rfl⟩
  obtain ⟨said, unreturned⟩ := said.foldl_arguments proper.names proper.descriptions
  obtain ⟨texts, arguments, returns⟩ := said.foldl_returns unreturned proper.returns
  rw [ofText, proper.dedent_text, Content.body, List.foldl_cons, List.foldl_append,
    List.foldl_append, summary, paragraphs, State.finished]
  dsimp only
  rw [List.filter_reverse, texts, arguments, returns, List.reverse_append, List.reverse_reverse]
  rfl

/-- **A docstring is read back.**  Its summary, its paragraphs, joined by blank lines, the map of
its arguments and what it returns are those that it was written from. -/
theorem ofText_text {d : Content} (proper : d.Proper) :
    (ofText d.text).summary = some (String.ofList d.summary) ∧
      (ofText d.text).description = (if d.paragraphs = [] then none
        else some (String.ofList (['\n', '\n'].intercalate d.paragraphs))) ∧
      (∀ name text,
        (ofText d.text).arguments.get? (String.ofList name) = some (String.ofList text) ↔
          (name, text) ∈ d.arguments) ∧
      (ofText d.text).returns = d.returns.map String.ofList := by
  rw [ofText_eq proper]
  refine ⟨rfl, ?_, fun name text => ?_, ?_⟩
  · simp only [optional, List.isEmpty_iff,
      intercalate_eq_nil_iff fun p hp => (proper.paragraphs p hp).1.filled]
  · rw [SortedMap.get?_ofList (distinct_names proper),
      SortedMap.lookup_eq_some_iff (distinct_names proper), List.mem_map]
    constructor
    · rintro ⟨a, ha, same⟩
      obtain ⟨sameName, sameText⟩ := Prod.mk.inj same
      rwa [← String.ofList_injective sameName, ← String.ofList_injective sameText]
    · exact fun h => ⟨_, h, rfl⟩
  · cases returns : d.returns with
    | none => rfl
    | some t =>
      have filled : t.isEmpty = false := by simpa using (proper.returns t returns).filled
      dsimp only
      rw [Option.toList_some, List.intercalate_singleton,
        returned_eq_self (proper.untyped t returns), optional, filled]
      rfl

/-- A docstring with everything: its paragraph and the description of an argument look like headers
of sections, and what is returned has a colon. -/
theorem ofText_text_find :
    let d : Content := ⟨"Find.".toList, ["Notes on q:".toList], [("q".toList, "Returns:".toList)],
      some "The hits: all".toList⟩
    d.text = "Find.\n\n    Notes on q:\n\n    Args:\n        q: Returns:\n\n" ++
        "    Returns:\n        The hits: all" ∧
      d.Proper ∧ (ofText d.text).description = some "Notes on q:" ∧
      (ofText d.text).returns = some "The hits: all" := by
  intro d
  have named : ∀ c ∈ ['q'], isBlank c = false ∧ c ≠ ':' ∧ c ≠ '(' :=
    List.forall_mem_singleton.2 (by decide)
  have proper : d.Proper :=
    ⟨by decide, by decide, List.forall_mem_singleton.2 ⟨by decide, named⟩, by decide, by decide,
      by decide, by decide⟩
  obtain ⟨-, description, -, returns⟩ := ofText_text proper
  exact ⟨by decide, proper, description, returns⟩

end Python.Docstring

end ApiCanon
