import ApiCanon.DocComment.Reader
import ApiCanon.Go.Annotation
import ApiCanon.Proofs.Python.Annotations
import Mathlib.Tactic.FinCases

/-!
# Lists in three notations

A list of items is written with brackets behind the type of the items in doc comments, in brackets
behind `list` in Python, and with brackets in front in Go.  However deep the lists are nested, the
three readers find the same type (`notations_agree`), so that an API that is described in two of the
languages is found to be the same.

The names apart from which this holds mean something of their own in one of the languages only: a
bare `List` and a file that is uploaded in Python, bytes and interfaces in Go.
-/

namespace ApiCanon

open Text (trim isBlank isNameChar)

namespace TypeNotation

/-- A type with `n` pairs of brackets behind it. -/
def behind (n : Nat) (w : List Char) : List Char := w ++ (List.replicate n ['[', ']']).flatten

/-- A type inside of `n` lists with brackets around their items. -/
def around (n : Nat) (w : List Char) : List Char :=
  (List.replicate n "list[".toList).flatten ++ w ++ List.replicate n ']'

/-- A type with `n` pairs of brackets in front. -/
def inFront (n : Nat) (w : List Char) : List Char := (List.replicate n ['[', ']']).flatten ++ w

lemma behind_succ (n : Nat) (w : List Char) : behind (n + 1) w = behind n w ++ ['[', ']'] := by
  rw [behind, behind, List.replicate_succ', List.flatten_concat, List.append_assoc]

lemma around_succ (n : Nat) (w : List Char) :
    around (n + 1) w = "list".toList ++ '[' :: around n w ++ [']'] := by
  rw [around, List.replicate_succ, List.replicate_succ', List.flatten_cons]
  simp [around]

lemma inFront_succ (n : Nat) (w : List Char) : inFront (n + 1) w = '[' :: ']' :: inFront n w := by
  rw [inFront, List.replicate_succ]
  rfl

end TypeNotation

open TypeNotation

lemma visible_brackets (n : Nat) :
    ∀ c ∈ (List.replicate n ['[', ']']).flatten, isBlank c = false := by
  intro c hc
  obtain ⟨brackets, pair, hc⟩ := List.mem_flatten.1 hc
  rw [List.eq_of_mem_replicate pair] at hc
  fin_cases hc <;> rfl

section Names

variable {w : List Char} (plain : ∀ c ∈ w, isNameChar c = true)

include plain

lemma not_mem_of_plain {d : Char} (other : isNameChar d = false) : d ∉ w :=
  fun h => Text.ne_of_isNameChar (plain d h) other rfl

lemma visible_of_plain : ∀ c ∈ w, isBlank c = false :=
  fun c hc => Text.isBlank_of_isNameChar (plain c hc)

lemma splitAtLast?_of_plain : Text.splitAtLast? (· == '.') w = none :=
  Text.splitAtLast?_eq_none_iff.2 fun c hc =>
    beq_false_of_ne (Text.ne_of_isNameChar (plain c hc) (by decide))

/-! ## Brackets behind -/

lemma visible_behind (n : Nat) : ∀ c ∈ behind n w, isBlank c = false :=
  List.forall_mem_append.2 ⟨visible_of_plain plain, visible_brackets n⟩

lemma DocComment.typeFrom_behind (n : Nat) {fuel : Nat} (enough : n < fuel) :
    typeFrom fuel (behind n w) = TypeRef.nested n (typeRefFor (String.ofList w)) := by
  induction n generalizing fuel with
  | zero =>
    obtain ⟨fuel, rfl⟩ := Nat.exists_eq_succ_of_ne_zero (Nat.ne_of_gt enough)
    have name : behind 0 w = w := List.append_nil w
    have item : Text.stripSuffix? ['[', ']'] w = none :=
      Text.stripSuffix?_of_not_mem (c := '[') (by decide) (not_mem_of_plain plain (by decide))
    have opening : ∀ pat : List Char, '<' ∈ pat → Text.stripPrefix? pat w = none :=
      fun pat mem => Text.stripPrefix?_of_not_mem mem (not_mem_of_plain plain (by decide))
    have angle : angleItem? w = none := by
      simp only [angleItem?, opening _ (by decide : '<' ∈ "Array.<".toList),
        opening _ (by decide : '<' ∈ "Array<".toList), Option.bind_none]
      rfl
    have bar : w.contains '|' = false :=
      Bool.eq_false_iff.2 fun h => not_mem_of_plain plain (by decide) (List.contains_iff_mem.1 h)
    rw [name, typeFrom, Text.trim_eq_self_of_visible (visible_of_plain plain), item, angle, bar]
    rfl
  | succ n ih =>
    obtain ⟨fuel, rfl⟩ := Nat.exists_eq_succ_of_ne_zero (Nat.ne_of_gt (Nat.zero_lt_of_lt enough))
    have item : Text.stripSuffix? ['[', ']'] (behind (n + 1) w) = some (behind n w) :=
      Text.stripSuffix?_eq_some_iff.2 (behind_succ n w)
    rw [typeFrom, Text.trim_eq_self_of_visible (visible_behind plain _), item, TypeRef.nested]
    exact congrArg TypeRef.array (ih (Nat.lt_of_succ_lt_succ enough))

/-- None of the marks of what is optional is there. -/
lemma DocComment.stripOptional_behind (n : Nat) :
    stripOptional (behind n w) = (behind n w, false) := by
  have absent : ∀ {d : Char}, isNameChar d = false → d ∉ ['[', ']'] → d ∉ behind n w := by
    intro d other bracket h
    rcases List.mem_append.1 h with h | h
    · exact not_mem_of_plain plain other h
    · obtain ⟨brackets, pair, h⟩ := List.mem_flatten.1 h
      exact bracket (List.eq_of_mem_replicate pair ▸ h)
  rw [stripOptional, Text.trim_eq_self_of_visible (visible_behind plain n),
    Text.stripSuffix?_of_not_mem (c := '=') (by decide) (absent (by decide) (by decide))]
  dsimp only
  split
  · next mark =>
    exact absurd (mark ▸ List.mem_cons_self) (absent (d := '?') (by decide) (by decide))
  · rfl

/-! ## Brackets around -/

lemma Python.nests_around (n : Nat) : nests (around n w) = true := by
  induction n with
  | zero => simpa [around] using nests_of_isNameChar plain
  | succ n ih =>
    rw [around_succ]
    exact nestsFrom_append ih 1 [']']

lemma Python.unquoted_around (n : Nat) : Unquoted (around n w) := by
  induction n with
  | zero => simpa [around] using unquoted_of_isNameChar plain
  | succ n ih =>
    rw [around_succ]
    simpa using ih

/-- A name that is none of those with a meaning of their own is that of a type. -/
lemma Python.typeAt_of_plain (builtin : w ∉ ["List".toList, "list".toList, "UploadFile".toList]) :
    typeAt w = (typeRefFor (String.ofList w), false) := by
  have bar : '|' ∉ outside w :=
    fun h => not_mem_of_plain plain (by decide) ((outsideFrom_sublist 0 w).subset h)
  have subscript : subscript? w = none := by
    refine Option.eq_none_iff_forall_ne_some.2 fun (head, inside) found => ?_
    obtain ⟨name, -, -, whole⟩ := subscript?_eq_some_iff.1 found
    refine not_mem_of_plain plain (d := '[') (by decide) ?_
    rw [whole]
    simp
  have last : afterLastPoint w = w := by rw [afterLastPoint, splitAtLast?_of_plain plain]
  have name : typeOfName w = typeRefFor (String.ofList w) := by
    have other : ∀ {s : String}, s.toList ∈ ["List".toList, "list".toList, "UploadFile".toList] →
        String.ofList w ≠ s := by
      rintro s reserved rfl
      rw [@String.toList_ofList w] at reserved
      exact builtin reserved
    rw [typeOfName, last]
    split
    · next same => exact absurd same (other (by decide))
    · next same => exact absurd same (other (by decide))
    · next same => exact absurd same (other (by decide))
    · rfl
  rw [typeAt_eq (unquoted_of_isNameChar plain), splitOutside_of_not_mem bar,
    Text.trim_eq_self_of_visible (visible_of_plain plain), subscript, name]
  rfl

lemma Python.typeAt_around (builtin : w ∉ ["List".toList, "list".toList, "UploadFile".toList])
    (n : Nat) :
    typeAt (around n w) = (TypeRef.nested n (typeRefFor (String.ofList w)), false) := by
  induction n with
  | zero => simpa [around, TypeRef.nested] using typeAt_of_plain plain builtin
  | succ n ih =>
    rw [around_succ, typeAt_subscript (by decide) (List.all_eq_true.1 rfl)
      (unquoted_around plain n) (nests_around plain n)]
    show (TypeRef.array (typeAt (around n w)).1, false) = _
    rw [ih, TypeRef.nested]

/-! ## Brackets in front -/

lemma Go.typeOfName_of_plain (interface : ¬"interface".toList <+: w) :
    typeOfName w = typeRefFor (String.ofList w) := by
  have point := not_mem_of_plain plain (d := '.') (by decide)
  have last := splitAtLast?_of_plain plain
  have time : (w == "time.Time".toList) = false := by
    refine beq_false_of_ne fun same => point ?_
    rw [same]
    decide
  have starts : Text.startsWith "interface".toList w = false :=
    Bool.eq_false_iff.2 fun h => interface (Text.startsWith_iff.1 h)
  rw [typeOfName, time, starts, last, Bool.or_false]
  simp only [Bool.false_eq_true, if_false, beq_iff_eq]
  split_ifs with any
  · rw [any]
    rfl
  · rfl

lemma visible_inFront (n : Nat) : ∀ c ∈ inFront n w, isBlank c = false :=
  List.forall_mem_append.2 ⟨visible_brackets n, visible_of_plain plain⟩

lemma Go.isPointer_inFront (n : Nat) : isPointer (inFront n w) = false := by
  rw [isPointer, Text.trim_eq_self_of_visible (visible_inFront plain n)]
  cases n with
  | zero =>
    refine beq_false_of_ne fun first => not_mem_of_plain plain (d := '*') (by decide) ?_
    exact List.mem_of_mem_head? first
  | succ n =>
    rw [inFront_succ]
    rfl

lemma Go.typeFrom_inFront (bytes : w ≠ "byte".toList) (interface : ¬"interface".toList <+: w)
    (n : Nat) {fuel : Nat} (enough : n < fuel) :
    typeFrom fuel (inFront n w) = TypeRef.nested n (typeRefFor (String.ofList w)) := by
  induction n generalizing fuel with
  | zero =>
    obtain ⟨fuel, rfl⟩ := Nat.exists_eq_succ_of_ne_zero (Nat.ne_of_gt enough)
    have name : inFront 0 w = w := rfl
    have trimmed := Text.trim_eq_self_of_visible (visible_of_plain plain)
    have map : Text.startsWith "map[".toList w = false :=
      Text.startsWith_of_not_mem (c := '[') (by decide) (not_mem_of_plain plain (by decide))
    rw [name, typeFrom, trimmed]
    split
    · next pointer _ =>
      exact absurd List.mem_cons_self (not_mem_of_plain plain (d := '*') (by decide))
    · exact absurd List.mem_cons_self (not_mem_of_plain plain (d := '[') (by decide))
    · rw [map, Go.typeOfName_of_plain plain interface]
      rfl
  | succ n ih =>
    obtain ⟨fuel, rfl⟩ := Nat.exists_eq_succ_of_ne_zero (Nat.ne_of_gt (Nat.zero_lt_of_lt enough))
    have item : (inFront n w == "byte".toList) = false := by
      cases n with
      | zero => exact beq_false_of_ne bytes
      | succ n =>
        rw [inFront_succ]
        rfl
    have bracket : Text.splitAtFirst? (· == ']') (']' :: inFront n w) = some ([], inFront n w) :=
      rfl
    rw [typeFrom, Text.trim_eq_self_of_visible (visible_inFront plain _), inFront_succ]
    simp only [bracket, item, Bool.false_eq_true, if_false, ih (Nat.lt_of_succ_lt_succ enough),
      TypeRef.nested]

end Names

/-- **The three notations of lists agree.** -/
theorem notations_agree (n : Nat) {w : List Char} (plain : ∀ c ∈ w, isNameChar c = true)
    (builtin : w ∉ ["List".toList, "list".toList, "UploadFile".toList, "byte".toList])
    (interface : ¬"interface".toList <+: w) :
    DocComment.typeOf (behind n w) = (TypeRef.nested n (typeRefFor (String.ofList w)), false) ∧
      Python.typeOf (String.ofList (around n w)) =
        (TypeRef.nested n (typeRefFor (String.ofList w)), false) ∧
      Go.typeOf (inFront n w) = (TypeRef.nested n (typeRefFor (String.ofList w)), false) := by
  refine ⟨?_, ?_, ?_⟩
  · have enough : n < (behind n w).length + 1 := by
      rw [behind, List.length_append, List.length_flatten]
      simp
      omega
    rw [DocComment.typeOf, DocComment.stripOptional_behind plain]
    exact congrArg (·, false) (DocComment.typeFrom_behind plain n enough)
  · have builtin : w ∉ ["List".toList, "list".toList, "UploadFile".toList] :=
      fun h => builtin (List.mem_append_left ["byte".toList] h)
    rw [Python.typeOf_eq, String.toList_ofList]
    exact Python.typeAt_around plain builtin n
  · have bytes : w ≠ "byte".toList := by
      rintro rfl
      exact builtin (by decide)
    have enough : n < (inFront n w).length + 1 := by
      rw [inFront, List.length_append, List.length_flatten]
      simp
      omega
    rw [Go.typeOf, Go.typeFrom_inFront plain bytes interface n enough, Go.isPointer_inFront plain]

/-- Lists of lists of files. -/
theorem notations_agree_files :
    DocComment.typeOf "file[][]".toList = (.array (.array (.primitive "binary")), false) ∧
      Python.typeOf "list[list[file]]" = (.array (.array (.primitive "binary")), false) ∧
      Go.typeOf "[][]file".toList = (.array (.array (.primitive "binary")), false) :=
  notations_agree 2 (w := "file".toList) (List.all_eq_true.1 rfl) (by decide) (by decide)

end ApiCanon
