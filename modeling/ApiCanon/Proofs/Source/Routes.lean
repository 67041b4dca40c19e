import ApiCanon.Model.Endpoint
import ApiCanon.Proofs.Text.Blank
import ApiCanon.Proofs.Text.Search
import ApiCanon.Proofs.Text.Utf8
import ApiCanon.Source.Route
import Mathlib.Data.List.Forall2

/-!
# Routes in the common form

Every path has a common form.  Its segments are converted one by one, and what stands between angle
brackets is cut out by the places of its bytes, which are always there
(`converts_normalizeSegment`).  A segment that has been converted stays as it is, and no blank is
left at an end, so that a path in the common form is its own common form.

A route is written as segments, texts and parameters in any of their spellings; the placeholders of
its common form are the names of the parameters (`normalize_route`).
-/

namespace ApiCanon

open Text (isBlank trim EndsVisible)

/-! ## Placeholders of pieces -/

lemma placeholdersFrom_append_of_not_mem {s : List Char} (none : '\x7b' ∉ s) (r : List Char) :
    placeholdersFrom .none (s ++ r) = placeholdersFrom .none r := by
  induction s with
  | nil => rfl
  | cons c s ih =>
    have other : (c == '\x7b') = false := beq_false_of_ne (List.ne_of_not_mem_cons none).symm
    rw [List.cons_append, placeholdersFrom, other, if_neg Bool.false_ne_true,
      ih (List.not_mem_of_not_mem_cons none)]

/-- A name under way goes on to the next closing brace. -/
lemma placeholdersFrom_some_append {s : List Char} (none : '\x7d' ∉ s) (name r : List Char) :
    placeholdersFrom (some name) (s ++ r) = placeholdersFrom (some (s.reverse ++ name)) r := by
  induction s generalizing name with
  | nil => rfl
  | cons c s ih =>
    have other : (c == '\x7d') = false := beq_false_of_ne (List.ne_of_not_mem_cons none).symm
    rw [List.cons_append, placeholdersFrom, other, if_neg Bool.false_ne_true,
      ih (List.not_mem_of_not_mem_cons none), List.reverse_cons, List.append_assoc]
    rfl

namespace Route

lemma placeholdersFrom_placeholder {name : List Char} (none : '\x7d' ∉ name) (r : List Char) :
    placeholdersFrom .none (placeholder name ++ r) =
      (if name = [] then [] else [name]) ++ placeholdersFrom .none r := by
  rw [placeholder, List.cons_append, List.cons_append, placeholdersFrom, if_pos (by rfl),
    List.append_assoc, placeholdersFrom_some_append none, List.append_nil]
  by_cases empty : name = [] <;> simp [placeholdersFrom, empty]

/-! ## Conversion of segments -/

/-- What stands in a text from the byte `start` to the byte `stop`. -/
def IsSlice (s : List Char) (start stop : Nat) (inside : List Char) : Prop :=
  ∃ before behind, s = before ++ inside ++ behind ∧ utf8Length before = start ∧
    utf8Length (before ++ inside) = stop

/-- A segment between angle brackets. -/
def Bracketed (s : List Char) : Prop := s.head? = some '<' ∧ s.getLast? = some '>'

/-- What a segment is converted to.  A segment between brackets is converted only if there is a text
from its second byte to the one before its last. -/
inductive Converts : List Char → List Char → Prop where
  | colon (name : List Char) :
      Converts (':' :: name) (placeholder (Text.dropRightWhile (· == '?') name))
  | brackets {s inside : List Char} (enclosed : Bracketed s)
      (cut : IsSlice s 1 (utf8Length s - 1) inside) :
      Converts s (placeholder (afterLastColon inside))
  | literal {s : List Char} (unmarked : s.head? ≠ some ':') (bare : ¬Bracketed s) : Converts s s

lemma normalizeSegment_brackets (inside : List Char) :
    normalizeSegment ('<' :: inside ++ ['>']) = placeholder (afterLastColon inside) := by
  simp [normalizeSegment]

lemma exists_of_bracketed {s : List Char} (enclosed : Bracketed s) :
    ∃ inside, s = '<' :: inside ++ ['>'] := by
  obtain ⟨front, last⟩ := enclosed
  obtain ⟨r, rfl⟩ := List.head?_eq_some_iff.1 front
  obtain ⟨t, whole⟩ := List.getLast?_eq_some_iff.1 last
  cases t with
  | nil => cases whole
  | cons c t =>
    obtain ⟨rfl, rfl⟩ := List.cons.inj whole
    exact ⟨t, rfl⟩

lemma normalizeSegment_literal {s : List Char} (unmarked : s.head? ≠ some ':')
    (bare : ¬Bracketed s) : normalizeSegment s = s := by
  unfold normalizeSegment
  split
  · exact absurd rfl unmarked
  · split
    · next r _ inside mirrored =>
      refine absurd ⟨rfl, ?_⟩ bare
      rw [List.getLast?_cons_of_ne_nil]
      all_goals simp [List.reverse_eq_cons_iff.1 mirrored]
    · rfl
  · rfl

/-- **Every segment is converted.** -/
lemma converts_normalizeSegment (s : List Char) : Converts s (normalizeSegment s) := by
  by_cases marked : s.head? = some ':'
  · obtain ⟨name, rfl⟩ := List.head?_eq_some_iff.1 marked
    exact .colon name
  by_cases enclosed : Bracketed s
  · obtain ⟨inside, rfl⟩ := exists_of_bracketed enclosed
    rw [normalizeSegment_brackets]
    exact .brackets enclosed
      ⟨['<'], ['>'], rfl, rfl, by rw [utf8Length_append ('<' :: inside)]; rfl⟩
  · rw [normalizeSegment_literal marked enclosed]
    exact .literal marked enclosed

lemma afterLastColon_subset (s : List Char) : afterLastColon s ⊆ s := by
  unfold afterLastColon
  split
  · next name found =>
    obtain ⟨⟨c, -, whole⟩, -⟩ := Text.splitAtLast?_spec found
    rw [whole]
    exact fun _ h => List.mem_append_right _ (List.mem_cons_of_mem _ h)
  · exact List.Subset.refl s

/-- A segment stays as it is, or a part of it becomes a placeholder. -/
lemma Converts.cases {s t : List Char} (h : Converts s t) :
    t = s ∨ ∃ name, name ⊆ s ∧ t = placeholder name := by
  cases h with
  | colon name =>
    refine .inr ⟨_, fun c hc => List.mem_cons_of_mem _ ?_, rfl⟩
    exact List.mem_reverse.1 ((List.dropWhile_sublist _).subset (List.mem_reverse.1 hc))
  | brackets _ cut =>
    obtain ⟨before, behind, rfl, -⟩ := cut
    refine .inr ⟨_, fun c hc => List.mem_append_left _ (List.mem_append_right _ ?_), rfl⟩
    exact afterLastColon_subset _ hc
  | literal => exact .inl rfl

lemma normalizeSegment_normalizeSegment (s : List Char) :
    normalizeSegment (normalizeSegment s) = normalizeSegment s := by
  rcases (converts_normalizeSegment s).cases with same | ⟨name, -, made⟩
  · rw [same, same]
  · rw [made]
    rfl

lemma slash_not_mem_normalizeSegment {s : List Char} (none : '/' ∉ s) :
    '/' ∉ normalizeSegment s := by
  rcases (converts_normalizeSegment s).cases with same | ⟨name, part, made⟩
  · rwa [same]
  · have absent : '/' ∉ name := fun h => none (part h)
    rw [made]
    simpa [placeholder] using absent

/-! ## Ends -/

lemma endsVisible_append_slash_iff (s t : List Char) :
    EndsVisible (s ++ '/' :: t) ↔ EndsVisible t := by
  rw [EndsVisible, List.getLast?_append_of_ne_nil _ (List.cons_ne_nil _ _)]
  cases t with
  | nil => exact iff_of_true (by rintro c ⟨⟩; rfl) (by rintro c ⟨⟩)
  | cons c t => rw [List.getLast?_cons_cons]; rfl

lemma endsVisible_normalizeSegment {s : List Char} (h : EndsVisible s) :
    EndsVisible (normalizeSegment s) := by
  rcases (converts_normalizeSegment s).cases with same | ⟨name, -, made⟩
  · rwa [same]
  · rw [made, EndsVisible, placeholder, List.getLast?_concat]
    rintro c ⟨⟩
    rfl

lemma endsVisible_intercalate {pieces : List (List Char)}
    (h : EndsVisible (['/'].intercalate pieces)) :
    EndsVisible (['/'].intercalate (pieces.map Route.normalizeSegment)) := by
  induction pieces with
  | nil => exact h
  | cons p ps ih =>
    cases ps with
    | nil =>
      rw [List.intercalate_singleton] at h
      rw [List.map_singleton, List.intercalate_singleton]
      exact endsVisible_normalizeSegment h
    | cons q ps =>
      rw [List.intercalate_cons_cons, List.append_assoc, List.singleton_append,
        endsVisible_append_slash_iff] at h
      rw [List.map_cons, List.map_cons, List.intercalate_cons_cons, List.append_assoc,
        List.singleton_append, endsVisible_append_slash_iff]
      exact ih h

/-! ## The common form -/

section Pieces

variable {ps : List (List Char)} (some : ps ≠ [])
  (whole : ∀ p ∈ ps, '/' ∉ p ∧ normalizeSegment p = p)

include some whole

/-- Segments in the common form stay as they are. -/
lemma normalizeChars_intercalate (front : (['/'].intercalate ps).head? = .some '/')
    (visible : EndsVisible (['/'].intercalate ps)) :
    normalizeChars (['/'].intercalate ps) = ['/'].intercalate ps := by
  have first : ∀ c ∈ (['/'].intercalate ps).head?, isBlank c = false := by
    rw [front]
    rintro c ⟨⟩
    decide
  have same : ps.map normalizeSegment = ps := List.map_congr_left (fun p hp => (whole p hp).2)
    |>.trans (List.map_id ps)
  rw [normalizeChars, Text.trim_eq_self first visible, Text.splitAll_eq_splitOn,
    List.splitOn_intercalate '/' (fun p hp => (whole p hp).1) some, same]
  obtain ⟨r, whole⟩ := List.head?_eq_some_iff.1 front
  rw [whole, rooted]

/-- A slash in front is an empty segment more. -/
lemma exists_rooted_eq : ∃ qs : List (List Char), qs ≠ [] ∧
    (∀ q ∈ qs, '/' ∉ q ∧ normalizeSegment q = q) ∧
      rooted (['/'].intercalate ps) = ['/'].intercalate qs := by
  unfold rooted
  split
  · next r front => exact ⟨ps, some, whole, front ▸ rfl⟩
  · refine ⟨[] :: ps, List.cons_ne_nil _ _, List.forall_mem_cons.2 ⟨⟨nofun, rfl⟩, whole⟩, ?_⟩
    rw [List.intercalate_cons_of_ne_nil some]
    rfl

end Pieces

lemma endsVisible_rooted {s : List Char} (h : EndsVisible s) : EndsVisible (rooted s) := by
  unfold rooted
  split
  · exact h
  · exact (endsVisible_append_slash_iff [] s).2 h

lemma normalizeChars_normalizeChars (path : List Char) :
    normalizeChars (normalizeChars path) = normalizeChars path := by
  have converted : ∀ p ∈ ((trim path).splitOn '/').map normalizeSegment,
      '/' ∉ p ∧ normalizeSegment p = p := by
    intro p hp
    obtain ⟨s, hs, rfl⟩ := List.mem_map.1 hp
    exact ⟨slash_not_mem_normalizeSegment (Text.not_mem_of_mem_splitOn hs),
      normalizeSegment_normalizeSegment s⟩
  have visible : EndsVisible (normalizeChars path) := by
    refine endsVisible_rooted (endsVisible_intercalate ?_)
    rw [Text.splitAll_eq_splitOn, List.intercalate_splitOn]
    exact Text.endsVisible_trim path
  obtain ⟨qs, some, whole, made⟩ := exists_rooted_eq (by simp) converted
  have form : normalizeChars path = ['/'].intercalate qs := by
    rw [normalizeChars, Text.splitAll_eq_splitOn, made]
  have front := normalizeChars_head path
  rw [form] at visible front ⊢
  exact normalizeChars_intercalate some whole front visible

/-! ## Written routes -/

/-- How a parameter is written. -/
inductive Spelling where
  | colon
  | optional
  | brackets
  | converter (text : List Char)
  deriving DecidableEq, Repr

/-- A segment of a route as it is written: a text, or a parameter. -/
inductive Segment where
  | literal (text : List Char)
  | parameter (spelling : Spelling) (name : List Char)
  deriving DecidableEq, Repr

/-- A character that ends no segment and is neither a brace nor blank. -/
def isOrdinary (c : Char) : Bool := c != '/' && c != '\x7b' && c != '\x7d' && !isBlank c

namespace Segment

/-- The text of a segment. -/
def text : Segment → List Char
  | literal s => s
  | parameter .colon name => ':' :: name
  | parameter .optional name => ':' :: name ++ ['?']
  | parameter .brackets name => '<' :: name ++ ['>']
  | parameter (.converter c) name => '<' :: (c ++ ':' :: name) ++ ['>']

/-- The name of a parameter. -/
def name? : Segment → Option (List Char)
  | literal _ => none
  | parameter _ name => some name

/-- Whether a segment is written as segments are.  A text is not taken for a parameter, unless for
one without a name. -/
def Proper : Segment → Prop
  | literal s => (∀ c ∈ s, isOrdinary c = true) ∧ s.head? ≠ some ':' ∧
      (Bracketed s → s = ['<', '>'])
  | parameter spelling name => name ≠ [] ∧
      (∀ c ∈ name, isOrdinary c = true ∧ c ≠ ':' ∧ c ≠ '?') ∧
        ∀ c, spelling = .converter c → ∀ d ∈ c, isOrdinary d = true

end Segment

/-- The route of segments. -/
def ofSegments (segments : List Segment) : String :=
  String.ofList (['/'].intercalate (segments.map Segment.text))

lemma isOrdinary_iff {c : Char} : isOrdinary c = true ↔
    c ≠ '/' ∧ c ≠ '\x7b' ∧ c ≠ '\x7d' ∧ isBlank c = false := by
  simp [isOrdinary, and_assoc]

namespace Segment

lemma Proper.unbroken {s : Segment} (h : s.Proper) : ∀ c ∈ s.text, c ≠ '/' ∧ isBlank c = false := by
  have ordinary {c : Char} (hc : isOrdinary c = true) : c ≠ '/' ∧ isBlank c = false :=
    have hc := isOrdinary_iff.1 hc
    ⟨hc.1, hc.2.2.2⟩
  cases s with
  | literal s => exact fun c hc => ordinary (h.1 c hc)
  | parameter spelling name =>
    obtain ⟨-, plain, converter⟩ := h
    have named : ∀ c ∈ name, c ≠ '/' ∧ isBlank c = false := fun c hc => ordinary (plain c hc).1
    have marked {s : List Char} (hs : ∀ c ∈ s, c ≠ '/' ∧ isBlank c = false) :
        ∀ c ∈ '<' :: s ++ ['>'], c ≠ '/' ∧ isBlank c = false :=
      List.forall_mem_append.2
        ⟨List.forall_mem_cons.2 ⟨by decide, hs⟩, List.forall_mem_singleton.2 (by decide)⟩
    cases spelling with
    | colon => exact List.forall_mem_cons.2 ⟨by decide, named⟩
    | optional =>
      exact List.forall_mem_append.2
        ⟨List.forall_mem_cons.2 ⟨by decide, named⟩, List.forall_mem_singleton.2 (by decide)⟩
    | brackets => exact marked named
    | converter c =>
      refine marked (List.forall_mem_append.2 ⟨fun d hd => ordinary (converter c rfl d hd), ?_⟩)
      exact List.forall_mem_cons.2 ⟨by decide, named⟩

lemma normalizeSegment_parameter {spelling : Spelling} {name : List Char}
    (plain : ∀ c ∈ name, c ≠ ':' ∧ c ≠ '?') :
    normalizeSegment (text (.parameter spelling name)) = placeholder name := by
  have colon : ∀ c ∈ name, (c == ':') = false := fun c hc => beq_false_of_ne (plain c hc).1
  have mark : Text.dropRightWhile (· == '?') name = name :=
    Text.dropRightWhile_eq_self fun c hc =>
      beq_false_of_ne (plain c (List.mem_of_mem_getLast? hc)).2
  cases spelling with
  | colon => exact congrArg placeholder mark
  | optional =>
    have dropped : Text.dropRightWhile (· == '?') (name ++ ['?']) = name := by
      rw [Text.dropRightWhile, List.reverse_append, List.reverse_singleton, List.singleton_append,
        List.dropWhile_cons_of_pos (by rfl), ← Text.dropRightWhile, mark]
    exact congrArg placeholder dropped
  | brackets =>
    rw [text, normalizeSegment_brackets, afterLastColon, Text.splitAtLast?_eq_none_iff.2 colon]
  | converter c =>
    rw [text, normalizeSegment_brackets, afterLastColon, Text.splitAtLast?_append colon (by rfl)]

/-- A segment brings its name, wherever it stands. -/
lemma Proper.placeholdersFrom {s : Segment} (h : s.Proper) (r : List Char) :
    placeholdersFrom none (normalizeSegment s.text ++ r) =
      s.name?.toList ++ placeholdersFrom none r := by
  cases s with
  | literal s =>
    obtain ⟨ordinary, unmarked, bare⟩ := h
    by_cases enclosed : Bracketed s
    · rw [text, bare enclosed]
      exact placeholdersFrom_placeholder List.not_mem_nil r
    · rw [text, normalizeSegment_literal unmarked enclosed]
      exact placeholdersFrom_append_of_not_mem
        (fun brace => (isOrdinary_iff.1 (ordinary _ brace)).2.1 rfl) r
  | parameter spelling name =>
    obtain ⟨some, plain, -⟩ := h
    rw [normalizeSegment_parameter fun c hc => (plain c hc).2, placeholdersFrom_placeholder
      (fun brace => (isOrdinary_iff.1 (plain _ brace).1).2.2.1 rfl), if_neg some]
    rfl

end Segment

lemma visible_intercalate {ps : List (List Char)} (visible : ∀ p ∈ ps, ∀ c ∈ p, isBlank c = false) :
    ∀ c ∈ ['/'].intercalate ps, isBlank c = false := by
  induction ps with
  | nil => nofun
  | cons p ps ih =>
    obtain ⟨first, others⟩ := List.forall_mem_cons.1 visible
    cases ps with
    | nil => rwa [List.intercalate_singleton]
    | cons q ps =>
      rw [List.intercalate_cons_cons]
      exact List.forall_mem_append.2
        ⟨List.forall_mem_append.2 ⟨first, List.forall_mem_singleton.2 (by decide)⟩, ih others⟩

lemma placeholdersFrom_intercalate {segments : List Segment} (proper : ∀ s ∈ segments, s.Proper) :
    placeholdersFrom none (['/'].intercalate (segments.map fun s => normalizeSegment s.text)) =
      segments.filterMap Segment.name? := by
  induction segments with
  | nil => rfl
  | cons s segments ih =>
    obtain ⟨first, others⟩ := List.forall_mem_cons.1 proper
    have names : (s :: segments).filterMap Segment.name? =
        s.name?.toList ++ segments.filterMap Segment.name? := by
      rw [List.filterMap_cons]
      cases s.name? <;> rfl
    cases segments with
    | nil =>
      rw [List.map_singleton, List.intercalate_singleton, names]
      simpa [placeholdersFrom] using first.placeholdersFrom []
    | cons t segments =>
      have rest := ih others
      rw [List.map_cons] at rest
      rw [List.map_cons, List.map_cons, List.intercalate_cons_cons, List.append_assoc,
        first.placeholdersFrom, placeholdersFrom_append_of_not_mem (s := ['/']) (by decide), rest,
        names]

lemma placeholdersFrom_rooted (s : List Char) :
    placeholdersFrom none (rooted s) = placeholdersFrom none s := by
  unfold rooted
  split
  · rfl
  · exact placeholdersFrom_append_of_not_mem (s := ['/']) (by decide) s

lemma pathParameters_ofSegments {segments : List Segment} (proper : ∀ s ∈ segments, s.Proper) :
    pathParameters (normalize (ofSegments segments)) =
      (segments.filterMap Segment.name?).map String.ofList := by
  refine congrArg (List.map String.ofList) ?_
  rw [normalize, ofSegments, String.toList_ofList, String.toList_ofList, normalizeChars,
    placeholdersFrom_rooted]
  cases segments with
  | nil => rfl
  | cons s segments =>
    have unbroken :
        ∀ p ∈ (s :: segments).map Segment.text, ∀ c ∈ p, c ≠ '/' ∧ isBlank c = false := by
      intro p hp
      obtain ⟨t, ht, rfl⟩ := List.mem_map.1 hp
      exact (proper t ht).unbroken
    have trimmed := Text.trim_eq_self_of_visible
      (visible_intercalate fun p hp c hc => (unbroken p hp c hc).2)
    have pieces := List.splitOn_intercalate '/'
      (fun p hp h => (unbroken p hp '/' h).1 rfl) (by simp : (s :: segments).map Segment.text ≠ [])
    rw [trimmed, Text.splitAll_eq_splitOn, pieces, List.map_map]
    exact placeholdersFrom_intercalate proper

/-- **Every path has a common form, and the common form of a route has its parameters.**  All
segments of the trimmed path are converted; the form begins with a slash and is its own form; and if
the path is written as segments, its placeholders are the names of the parameters among them, in
order. -/
theorem normalize_route (path : String) :
    (∃ converted, List.Forall₂ Converts (Text.splitAll (· == '/') (trim path.toList)) converted ∧
        (normalize path).toList = rooted (['/'].intercalate converted)) ∧
      (normalize path).toList.head? = some '/' ∧
      normalize (normalize path) = normalize path ∧
      ∀ segments : List Segment, (∀ s ∈ segments, s.Proper) → path = ofSegments segments →
        pathParameters (normalize path) = (segments.filterMap Segment.name?).map String.ofList := by
  have chars : (normalize path).toList = normalizeChars path.toList := String.toList_ofList
  refine ⟨⟨_, ?_, chars⟩, ?_, ?_, ?_⟩
  · exact List.forall₂_map_right_iff.2 (List.forall₂_same.2 fun s _ => converts_normalizeSegment s)
  · rw [chars, normalizeChars_head]
  · rw [normalize, chars, normalizeChars_normalizeChars]
    rfl
  · rintro segments proper rfl
    exact pathParameters_ofSegments proper

/-- Parameters in four spellings, between a segment that is empty and one of a single bracket. -/
theorem normalize_route_spellings :
    let segments : List Segment := [.literal [], .parameter .colon ['i', 'd'], .literal ['<'],
      .parameter .brackets ['a', '>'], .parameter (.converter ['i', ':', 't']) ['b'],
      .parameter .optional ['c']]
    (∀ s ∈ segments, s.Proper) ∧ ofSegments segments = "/:id/</<a>>/<i:t:b>/:c?" ∧
      pathParameters (normalize "/:id/</<a>>/<i:t:b>/:c?") = ["id", "a>", "b", "c"] := by
  intro segments
  have proper : ∀ s ∈ segments, s.Proper := by
    simp only [segments, List.forall_mem_cons, Segment.Proper, Bracketed]
    simp
    decide
  have route : ofSegments segments = "/:id/</<a>>/<i:t:b>/:c?" := by decide
  exact ⟨proper, route, (normalize_route _).2.2.2 segments proper route.symm⟩

end Route

end ApiCanon
