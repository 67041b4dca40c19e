import ApiCanon.Text.Blank
import Mathlib.Data.List.Basic
import Mathlib.Data.List.DropRight
import Mathlib.Tactic.Lemma
import Mathlib.Tactic.SplitIfs

/-!
# Characters that are not blank

Trimming a text and splitting it into lines take nothing away but blanks: the other characters stay,
in their order (`solid_trim`, `solid_lines`).  Trimming takes away all blanks at the ends
(`exists_blanks`), so that a text may be trimmed once or twice, with more blanks around it or
without.
-/

namespace ApiCanon.Text

/-- The characters of a text that are not blank. -/
def solid (s : List Char) : List Char := s.filter fun c => !isBlank c

@[simp] lemma solid_nil : solid [] = [] := rfl

@[simp] lemma solid_append (s t : List Char) : solid (s ++ t) = solid s ++ solid t :=
  List.filter_append s t

lemma solid_cons_of_blank {c : Char} (blank : isBlank c = true) (s : List Char) :
    solid (c :: s) = solid s := by
  simp [solid, blank]

lemma solid_reverse (s : List Char) : solid s.reverse = (solid s).reverse :=
  List.filter_reverse

/-- A character that is not blank is as often there as among those that are not. -/
lemma count_solid {c : Char} (visible : isBlank c = false) (s : List Char) :
    (solid s).count c = s.count c :=
  List.count_filter (by simp [visible])

/-- What changes only blanks of each text changes only blanks of all of them. -/
lemma solid_flatten_map {f : List Char → List Char} {ls : List (List Char)}
    (each : ∀ l ∈ ls, solid (f l) = solid l) : solid (ls.map f).flatten = solid ls.flatten := by
  induction ls with
  | nil => rfl
  | cons l ls ih =>
    obtain ⟨first, others⟩ := List.forall_mem_cons.1 each
    rw [List.map_cons, List.flatten_cons, List.flatten_cons, solid_append, solid_append, first,
      ih others]

/-! ## Trimming -/

section Ends

variable {p : Char → Bool} {s : List Char}

lemma dropWhile_eq_self (first : ∀ c ∈ s.head?, p c = false) : s.dropWhile p = s := by
  cases s with
  | nil => rfl
  | cons c s => exact List.dropWhile_cons_of_neg (by rw [first c rfl]; nofun)

lemma dropRightWhile_eq_self (last : ∀ c ∈ s.getLast?, p c = false) :
    dropRightWhile p s = s := by
  rw [dropRightWhile, dropWhile_eq_self, List.reverse_reverse]
  rwa [List.head?_reverse]

lemma dropRightWhile_append_of_pos {b : List Char} (all : ∀ c ∈ b, p c = true) (s : List Char) :
    dropRightWhile p (s ++ b) = dropRightWhile p s := by
  rw [dropRightWhile, List.reverse_append,
    List.dropWhile_append_of_pos fun c hc => all c (List.mem_reverse.1 hc)]
  rfl

end Ends

/-- A text with no blank at either end is not trimmed. -/
lemma trim_eq_self {s : List Char} (first : ∀ c ∈ s.head?, isBlank c = false)
    (last : ∀ c ∈ s.getLast?, isBlank c = false) : trim s = s := by
  rw [trim, trimLeft, dropWhile_eq_self first, trimRight, dropRightWhile_eq_self last]

lemma trim_eq_self_of_visible {s : List Char} (visible : ∀ c ∈ s, isBlank c = false) : trim s = s :=
  trim_eq_self (fun c hc => visible c (List.mem_of_mem_head? hc))
    fun c hc => visible c (List.mem_of_mem_getLast? hc)

lemma trim_blanks_append {b : List Char} (blank : allBlank b = true) (s : List Char) :
    trim (b ++ s) = trim s := by
  rw [trim, trimLeft, List.dropWhile_append_of_pos (List.all_eq_true.1 blank)]
  rfl

lemma trimRight_append_blanks (s : List Char) {b : List Char} (blank : allBlank b = true) :
    trimRight (s ++ b) = trimRight s :=
  dropRightWhile_append_of_pos (List.all_eq_true.1 blank) s

/-- Only the blanks behind a text that ends with none are taken away. -/
lemma trimmedRight_append {s b : String} (last : ∀ c ∈ s.toList.getLast?, isBlank c = false)
    (blank : allBlank b.toList = true) : trimmedRight (s ++ b) = s := by
  rw [trimmedRight, String.toList_append, trimRight_append_blanks _ blank, trimRight,
    dropRightWhile_eq_self last, String.ofList_toList]

lemma trim_append_blanks (s : List Char) {b : List Char} (blank : allBlank b = true) :
    trim (s ++ b) = trim s := by
  rw [trim, trim, trimLeft, List.dropWhile_append]
  split_ifs with gone
  · rw [List.isEmpty_iff] at gone
    rw [trimLeft, gone, ← trimLeft, (trimLeft_eq_nil_iff b).2 blank]
  · exact trimRight_append_blanks _ blank

/-- A text is what is left of it with the blanks around. -/
lemma exists_blanks (s : List Char) :
    ∃ a b, allBlank a = true ∧ allBlank b = true ∧ s = a ++ trim s ++ b := by
  refine ⟨s.takeWhile isBlank, (trimLeft s).rtakeWhile isBlank, ?_, ?_, ?_⟩
  · exact List.all_eq_true.2 fun c hc => List.mem_takeWhile_imp hc
  · exact List.all_eq_true.2 fun c hc => List.mem_rtakeWhile_imp hc
  · have right : trim s ++ (trimLeft s).rtakeWhile isBlank = trimLeft s :=
      List.rdropWhile_append_rtakeWhile
    rw [List.append_assoc, right]
    exact List.takeWhile_append_dropWhile.symm

lemma length_trim_le (s : List Char) : (trim s).length ≤ s.length := by
  obtain ⟨a, b, -, -, whole⟩ := exists_blanks s
  have length := congrArg List.length whole
  rw [List.length_append, List.length_append] at length
  omega

/-- The last character of a text is not blank, if there is one. -/
def EndsVisible (s : List Char) : Prop := ∀ c ∈ s.getLast?, isBlank c = false

instance (s : List Char) : Decidable (EndsVisible s) :=
  decidable_of_iff (s.getLast?.all fun c => !isBlank c) <| by
    unfold EndsVisible
    cases s.getLast? <;> simp

lemma endsVisible_trim (s : List Char) : EndsVisible (trim s) := by
  intro c hc
  have dropped := List.head?_dropWhile_not isBlank (trimLeft s).reverse
  rw [trim, trimRight, dropRightWhile, List.getLast?_reverse] at hc
  rwa [Option.mem_def.1 hc] at dropped

lemma endsVisible_append {t : List Char} (some : t ≠ []) (visible : EndsVisible t) (s : List Char) :
    EndsVisible (s ++ t) := by
  rwa [EndsVisible, List.getLast?_append_of_ne_nil _ some]

lemma trim_trim (s : List Char) : trim (trim s) = trim s := by
  obtain ⟨a, b, before, behind, whole⟩ := exists_blanks s
  conv_rhs => rw [whole, trim_append_blanks _ behind, trim_blanks_append before]

/-- A text without blanks around begins with a character that is not blank. -/
lemma visible_head_of_trim {s : List Char} (trimmed : trim s = s) :
    ∀ c ∈ s.head?, isBlank c = false := by
  intro c hc
  obtain ⟨r, rfl⟩ := List.head?_eq_some_iff.1 hc
  refine Bool.eq_false_iff.2 fun blank => ?_
  have first : allBlank [c] = true := by rw [allBlank, List.all_cons, blank]; rfl
  have shorter := length_trim_le r
  rw [← trim_blanks_append first r, List.singleton_append, trimmed, List.length_cons] at shorter
  exact Nat.not_succ_le_self _ shorter

lemma solid_trimLeft (s : List Char) : solid (trimLeft s) = solid s := by
  induction s with
  | nil => rfl
  | cons c s ih =>
    rw [trimLeft, List.dropWhile_cons]
    split_ifs with blank
    · rw [solid_cons_of_blank blank]
      exact ih
    · rfl

lemma solid_trimRight (s : List Char) : solid (trimRight s) = solid s := by
  have mirrored := solid_trimLeft s.reverse
  rw [trimRight, dropRightWhile, solid_reverse]
  rw [trimLeft, solid_reverse] at mirrored
  rw [mirrored, List.reverse_reverse]

lemma solid_trim (s : List Char) : solid (trim s) = solid s :=
  (solid_trimRight _).trans (solid_trimLeft s)

/-! ## Lines -/

lemma solid_linesFrom (line s : List Char) :
    solid (linesFrom line s).flatten = solid line.reverse ++ solid s := by
  fun_induction linesFrom line s with
  | case1 line empty =>
    rw [List.isEmpty_iff.1 empty]
    rfl
  | case2 line => simp
  | case3 line r ih =>
    rw [List.flatten_cons, solid_append, ih, solid_cons_of_blank (c := '\n') (by decide)]
    refine congrArg (· ++ solid r) ?_
    -- The carriage return that is taken off the line is blank, too.
    split
    · rw [List.reverse_cons, solid_append, solid_cons_of_blank (c := '\r') (by decide), solid_nil,
        List.append_nil]
    · rfl
  | case4 line c r _ ih =>
    rw [ih, List.reverse_cons, solid_append, List.append_assoc, ← solid_append]
    rfl

/-- A text is split into lines at blanks only. -/
lemma solid_lines (s : List Char) : solid (lines s).flatten = solid s := solid_linesFrom [] s

lemma linesFrom_append {l : List Char} (none : '\n' ∉ l) (line r : List Char) :
    linesFrom line (l ++ r) = linesFrom (l.reverse ++ line) r := by
  induction l generalizing line with
  | nil => rfl
  | cons c l ih =>
    rw [List.cons_append, linesFrom, ih (List.not_mem_of_not_mem_cons none), List.reverse_cons,
      List.append_assoc]
    · rfl
    · exact fun feed => List.ne_of_not_mem_cons none feed.symm

/-- A line that does not end with a carriage return is read up to its line feed. -/
lemma lines_append {l : List Char} (none : '\n' ∉ l) (return_ : l.getLast? ≠ some '\r')
    (r : List Char) : lines (l ++ '\n' :: r) = l :: lines r := by
  have unreturned : ∀ m, l.reverse = '\r' :: m → False := by
    intro m mirrored
    rw [← List.head?_reverse, mirrored] at return_
    exact return_ rfl
  rw [lines, linesFrom_append none, List.append_nil, linesFrom]
  · exact congrArg (· :: lines r) (List.reverse_reverse l)
  · exact unreturned

/-- Texts joined by line feeds are the lines again, if the last one is not empty. -/
lemma lines_intercalate {ls : List (List Char)}
    (whole : ∀ l ∈ ls, '\n' ∉ l ∧ l.getLast? ≠ some '\r') (last : ls.getLast? ≠ some []) :
    lines (['\n'].intercalate ls) = ls := by
  induction ls with
  | nil => rfl
  | cons l ls ih =>
    obtain ⟨⟨none, return_⟩, others⟩ := List.forall_mem_cons.1 whole
    cases ls with
    | nil =>
      have some : l ≠ [] := fun empty => last (by rw [empty]; rfl)
      have read := linesFrom_append none [] []
      rw [List.append_nil, List.append_nil, linesFrom, if_neg (by simpa using some),
        List.reverse_reverse] at read
      rwa [List.intercalate_singleton]
    | cons m ls =>
      rw [List.getLast?_cons_cons] at last
      rw [List.intercalate_cons_cons, List.append_assoc, List.singleton_append,
        lines_append none return_, ih others last]

/-- Lines are put together again with blanks only. -/
lemma solid_unlines (ls : List (List Char)) :
    solid (['\n'].intercalate ls) = solid ls.flatten := by
  induction ls with
  | nil => rfl
  | cons l ls ih =>
    cases ls with
    | nil => simp
    | cons m ls =>
      rw [List.intercalate_cons_cons, solid_append, solid_append, ih,
        solid_cons_of_blank (c := '\n') (by decide), solid_nil, List.append_nil,
        List.flatten_cons (l := l), solid_append]

end ApiCanon.Text
