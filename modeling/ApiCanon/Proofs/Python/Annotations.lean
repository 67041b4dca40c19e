import ApiCanon.Proofs.Text.Blank
import ApiCanon.Proofs.Text.Case
import ApiCanon.Proofs.Text.Search
import ApiCanon.Python.TypeExpr
import Mathlib.Data.Nat.Basic

/-!
# What annotations mean

Where an annotation is split is told by the characters outside of its brackets (`outside`), and a
text with properly nested brackets is passed over as a whole by a splitter that is inside of other
ones (`outsideFrom_append`).

Every round of reading makes an annotation shorter, so that its length is fuel enough: the type of
an annotation, `typeAt`, satisfies the equation that the rounds suggest, without any fuel
(`typeAt_eq`).  What may be absent is written in five ways, which all mean the same
(`optional_spellings_agree`).
-/

namespace ApiCanon.Python

open Text (trim isBlank allBlank)

/-! ## Brackets -/

/-- The characters outside of brackets of a text that begins where `depth` of them are open. -/
def outsideFrom (depth : Int) : List Char → List Char
  | [] => []
  | c :: r =>
    if isOpening c then outsideFrom (depth + 1) r
    else if isClosing c then outsideFrom (depth - 1) r
    else if depth = 0 then c :: outsideFrom depth r
    else outsideFrom depth r

/-- The characters outside of brackets. -/
def outside (s : List Char) : List Char := outsideFrom 0 s

/-- Whether a text closes the `depth` brackets that are open where it begins and those it opens, and
no others. -/
def nestsFrom (depth : Nat) : List Char → Bool
  | [] => depth == 0
  | c :: r =>
    if isOpening c then nestsFrom (depth + 1) r
    else if isClosing c then 0 < depth && nestsFrom (depth - 1) r
    else nestsFrom depth r

/-- Whether the brackets of a text are properly nested. -/
def nests (s : List Char) : Bool := nestsFrom 0 s

lemma outsideFrom_sublist (depth : Int) (s : List Char) : (outsideFrom depth s).Sublist s := by
  induction s generalizing depth with
  | nil => exact List.Sublist.refl _
  | cons c s ih =>
    rw [outsideFrom]
    split_ifs
    · exact (ih _).cons c
    · exact (ih _).cons c
    · exact (ih _).cons_cons c
    · exact (ih _).cons c

/-- Inside of `k` brackets, nothing of a text that closes the others is outside. -/
lemma outsideFrom_append {d : Nat} {s : List Char} (closes : nestsFrom d s = true) {k : Int}
    (inside : 0 < k) (r : List Char) : outsideFrom (d + k) (s ++ r) = outsideFrom k r := by
  induction s generalizing d with
  | nil =>
    obtain rfl : d = 0 := by simpa [nestsFrom] using closes
    simp
  | cons c s ih =>
    rw [nestsFrom] at closes
    rw [List.cons_append, outsideFrom]
    split_ifs at closes ⊢ with opening closing top
    · have deeper : (d : Int) + k + 1 = (d + 1 : Nat) + k := by omega
      rw [deeper, ih closes]
    · obtain ⟨some, closes⟩ := Bool.and_eq_true_iff.1 closes
      have higher : (d : Int) + k - 1 = (d - 1 : Nat) + k := by
        have := of_decide_eq_true some
        omega
      rw [higher, ih closes]
    · omega
    · exact ih closes

/-- Behind a text that closes all brackets but `k` the next one begins with these open. -/
lemma nestsFrom_append {d : Nat} {s : List Char} (closes : nestsFrom d s = true) (k : Nat)
    (r : List Char) : nestsFrom (d + k) (s ++ r) = nestsFrom k r := by
  induction s generalizing d with
  | nil =>
    obtain rfl : d = 0 := by simpa [nestsFrom] using closes
    rw [Nat.zero_add, List.nil_append]
  | cons c s ih =>
    rw [nestsFrom] at closes
    rw [List.cons_append, nestsFrom]
    split_ifs at closes ⊢
    · rw [Nat.add_right_comm, ih closes]
    · obtain ⟨some, closes⟩ := Bool.and_eq_true_iff.1 closes
      have some := of_decide_eq_true some
      have higher : d + k - 1 = d - 1 + k := by omega
      rw [decide_eq_true (Nat.add_pos_left some k), Bool.true_and, higher, ih closes]
    · exact ih closes

lemma nests_append {s t : List Char} (hs : nests s = true) (ht : nests t = true) :
    nests (s ++ t) = true :=
  (nestsFrom_append hs 0 t).trans ht

lemma brackets_of_isNameChar {c : Char} (h : Text.isNameChar c = true) :
    isOpening c = false ∧ isClosing c = false := by
  have other : ∀ {d : Char}, Text.isNameChar d = false → (c == d) = false :=
    fun hd => beq_false_of_ne (Text.ne_of_isNameChar h hd)
  constructor
  · rw [isOpening, other (by decide), other (by decide), other (by decide)]
    rfl
  · rw [isClosing, other (by decide), other (by decide), other (by decide)]
    rfl

lemma nests_of_isNameChar {name : List Char} (plain : ∀ c ∈ name, Text.isNameChar c = true) :
    nests name = true := by
  induction name with
  | nil => rfl
  | cons c name ih =>
    obtain ⟨hc, rest⟩ := List.forall_mem_cons.1 plain
    rw [nests, nestsFrom, (brackets_of_isNameChar hc).1, (brackets_of_isNameChar hc).2]
    exact ih rest

/-! ## Splitting -/

section Splitting

variable {sep : Char}

lemma splitOutsideFrom_of_not_mem {depth : Int} {s : List Char}
    (whole : sep ∉ outsideFrom depth s) (piece : List Char) :
    splitOutsideFrom sep depth piece s = [trim (piece.reverse ++ s)] := by
  induction s generalizing depth piece with
  | nil => rw [splitOutsideFrom, List.append_nil]
  | cons c s ih =>
    rw [outsideFrom] at whole
    have move : piece.reverse ++ c :: s = (c :: piece).reverse ++ s := by simp
    rw [splitOutsideFrom, move]
    split_ifs at whole ⊢ with opening closing here top top
    · exact ih whole _
    · exact ih whole _
    · have same := beq_iff_eq.1 (Bool.and_eq_true_iff.1 here).1
      exact absurd (same ▸ List.mem_cons_self) whole
    · exact absurd (beq_iff_eq.1 (Bool.and_eq_true_iff.1 here).2) top
    · exact ih (fun h => whole (List.mem_cons_of_mem c h)) _
    · exact ih whole _

/-- There is one piece more than separators outside of brackets. -/
lemma length_splitOutsideFrom (sep : Char) (depth : Int) (piece s : List Char) :
    (splitOutsideFrom sep depth piece s).length = (outsideFrom depth s).count sep + 1 := by
  induction s generalizing depth piece with
  | nil => rfl
  | cons c s ih =>
    rw [splitOutsideFrom, outsideFrom]
    split_ifs with opening closing here top top
    · exact ih _ _
    · exact ih _ _
    · obtain rfl := beq_iff_eq.1 (Bool.and_eq_true_iff.1 here).1
      rw [List.length_cons, ih, List.count_cons_self]
    · exact absurd (beq_iff_eq.1 (Bool.and_eq_true_iff.1 here).2) top
    · have other : c ≠ sep := by
        rintro rfl
        simp [top] at here
      rw [ih, List.count_cons_of_ne other]
    · exact ih _ _

/-- A separator behind a text that closes all brackets ends a piece. -/
lemma splitOutsideFrom_append (plain : isOpening sep = false ∧ isClosing sep = false) {d : Nat}
    {s : List Char} (closes : nestsFrom d s = true) (piece r : List Char) :
    splitOutsideFrom sep d piece (s ++ sep :: r) =
      splitOutsideFrom sep d piece s ++ splitOutside sep r := by
  induction s generalizing d piece with
  | nil =>
    obtain rfl : d = 0 := by simpa [nestsFrom] using closes
    simp [splitOutsideFrom, splitOutside, plain]
  | cons c s ih =>
    rw [nestsFrom] at closes
    rw [List.cons_append, splitOutsideFrom, splitOutsideFrom]
    split_ifs at closes ⊢ with opening closing here
    · exact_mod_cast ih closes (c :: piece)
    · obtain ⟨some, closes⟩ := Bool.and_eq_true_iff.1 closes
      have higher : (d : Int) - 1 = (d - 1 : Nat) := by
        have := of_decide_eq_true some
        omega
      rw [higher, ih closes]
    · rw [ih closes]
      rfl
    · exact ih closes (c :: piece)

/-- The pieces of a split are the shorter the more of them there are. -/
lemma length_of_mem_splitOutsideFrom {depth : Int} {piece s m : List Char}
    (h : m ∈ splitOutsideFrom sep depth piece s) :
    m.length + (splitOutsideFrom sep depth piece s).length ≤ piece.length + s.length + 1 := by
  have trimmed : (trim piece.reverse).length ≤ piece.length := by
    simpa using Text.length_trim_le piece.reverse
  induction s generalizing depth piece with
  | nil =>
    rw [splitOutsideFrom, List.mem_singleton] at h
    rw [splitOutsideFrom, h]
    simpa using trimmed
  | cons c s ih =>
    have onwards : ∀ {d : Int}, m ∈ splitOutsideFrom sep d (c :: piece) s →
        m.length + (splitOutsideFrom sep d (c :: piece) s).length ≤
          piece.length + (c :: s).length + 1 := by
      intro d h
      have := ih h (by simpa using Text.length_trim_le (c :: piece).reverse)
      simp only [List.length_cons] at this ⊢
      omega
    rw [splitOutsideFrom] at h ⊢
    split_ifs at h ⊢
    · exact onwards h
    · exact onwards h
    · rw [List.length_cons, List.length_cons]
      rcases List.mem_cons.1 h with rfl | h
      · have separators : (outsideFrom depth s).count sep ≤ s.length :=
          List.count_le_length.trans (outsideFrom_sublist depth s).length_le
        rw [length_splitOutsideFrom]
        omega
      · have := ih h (by simp)
        simp only [List.length_nil] at this
        omega
    · exact onwards h

/-! Blanks at the ends of a text make no difference, as the pieces are trimmed. -/

lemma plain_of_blank {c : Char} (blank : isBlank c = true) :
    isOpening c = false ∧ isClosing c = false := by
  constructor
  all_goals
    refine Bool.eq_false_iff.2 fun bracket => ?_
    simp only [isOpening, isClosing, Bool.or_eq_true, beq_iff_eq] at bracket
    rcases bracket with (rfl | rfl) | rfl
    all_goals revert blank; decide

lemma splitOutsideFrom_append_blanks (visible : isBlank sep = false) (depth : Int)
    (piece s : List Char) {b : List Char} (blank : allBlank b = true) :
    splitOutsideFrom sep depth piece (s ++ b) = splitOutsideFrom sep depth piece s := by
  induction s generalizing depth piece with
  | nil =>
    have whole : sep ∉ outsideFrom depth b := by
      intro h
      have := List.all_eq_true.1 blank sep ((outsideFrom_sublist depth b).subset h)
      rw [visible] at this
      cases this
    rw [List.nil_append, splitOutsideFrom_of_not_mem whole, Text.trim_append_blanks _ blank,
      splitOutsideFrom]
  | cons c s ih =>
    simp only [List.cons_append, splitOutsideFrom, ih]

/-- Blanks at the beginning of a piece, which stand at the end of it while it is under way, are
trimmed away. -/
lemma splitOutsideFrom_piece_append (depth : Int) (piece : List Char) {b : List Char}
    (blank : allBlank b = true) (s : List Char) :
    splitOutsideFrom sep depth (piece ++ b) s = splitOutsideFrom sep depth piece s := by
  have front : ∀ piece : List Char, trim (piece ++ b).reverse = trim piece.reverse := by
    intro piece
    rw [List.reverse_append]
    exact Text.trim_blanks_append (by simpa [allBlank] using blank) _
  induction s generalizing depth piece with
  | nil => rw [splitOutsideFrom, splitOutsideFrom, front]
  | cons c s ih => simp only [splitOutsideFrom, ← List.cons_append, ih, front]

lemma splitOutsideFrom_blanks_append (visible : isBlank sep = false) (depth : Int)
    {b : List Char} (blank : allBlank b = true) (s piece : List Char) :
    splitOutsideFrom sep depth piece (b ++ s) =
      splitOutsideFrom sep depth (b.reverse ++ piece) s := by
  induction b generalizing piece with
  | nil => rfl
  | cons c b ih =>
    obtain ⟨hc, rest⟩ := Bool.and_eq_true_iff.1 blank
    have other : c ≠ sep := by
      rintro rfl
      rw [hc] at visible
      cases visible
    rw [List.cons_append, splitOutsideFrom, (plain_of_blank hc).1, (plain_of_blank hc).2,
      beq_false_of_ne other]
    simp only [Bool.false_eq_true, if_false, Bool.false_and]
    rw [ih rest, List.reverse_cons, List.append_assoc, List.singleton_append]

/-- A text and what is left of it without the blanks at its ends have the same pieces. -/
lemma splitOutside_trim (visible : isBlank sep = false) (s : List Char) :
    splitOutside sep (trim s) = splitOutside sep s := by
  obtain ⟨a, b, before, behind, whole⟩ := Text.exists_blanks s
  have start : allBlank a.reverse = true := by simpa [allBlank] using before
  conv_rhs => rw [whole]
  rw [splitOutside, splitOutside, splitOutsideFrom_append_blanks visible _ _ _ behind,
    splitOutsideFrom_blanks_append visible _ before, List.append_nil,
    ← splitOutsideFrom_piece_append 0 [] start, List.nil_append]

lemma splitOutside_append_blanks (visible : isBlank sep = false) (s : List Char) {b : List Char}
    (blank : allBlank b = true) : splitOutside sep (s ++ b) = splitOutside sep s := by
  rw [← splitOutside_trim visible, Text.trim_append_blanks s blank, splitOutside_trim visible]

lemma splitOutside_blanks_append (visible : isBlank sep = false) {b : List Char}
    (blank : allBlank b = true) (s : List Char) :
    splitOutside sep (b ++ s) = splitOutside sep s := by
  rw [← splitOutside_trim visible, Text.trim_blanks_append blank s, splitOutside_trim visible]

end Splitting

/-! ## Rounds of reading -/

section Rounds

variable {f g : List Char → TypeRef × Bool}

lemma typeOfUnion_congr {members : List (List Char)} (same : ∀ m ∈ members, f m = g m) :
    typeOfUnion f members = typeOfUnion g members := by
  have same : ∀ m ∈ present members, f m = g m := fun m hm => same m (List.mem_of_mem_filter hm)
  unfold typeOfUnion
  split
  · next only => rw [same _ (only ▸ List.mem_singleton_self _)]
  · rfl

/-- Types of arguments depend on how texts no longer than all of them are read. -/
lemma typeOfSubscript_congr {head inside : List Char}
    (same : ∀ m : List Char, m.length ≤ inside.length → f m = g m) :
    typeOfSubscript f head inside = typeOfSubscript g head inside := by
  have arguments : ∀ m ∈ splitOutside ',' inside, f m = g m := by
    intro m hm
    have := length_of_mem_splitOutsideFrom hm
    have := length_splitOutsideFrom ',' 0 [] inside
    refine same m ?_
    simp only [List.length_nil] at *
    omega
  have first : f ((splitOutside ',' inside).headD []) = g ((splitOutside ',' inside).headD []) := by
    cases pieces : splitOutside ',' inside with
    | nil => exact same [] (Nat.zero_le _)
    | cons m r => exact arguments m (pieces ▸ List.mem_cons_self)
  simp only [typeOfSubscript, same inside le_rfl, typeOfUnion_congr arguments, first]

end Rounds

lemma length_unquote_le (s : List Char) : (unquote s).length ≤ s.length :=
  (List.rdropWhile_prefix _ _).length_le.trans (List.dropWhile_suffix _).length_le

/-- A name with arguments is taken apart where it is put together. -/
lemma subscript?_eq_some_iff {s head inside : List Char} :
    subscript? s = some (head, inside) ↔
      ∃ name, '[' ∉ name ∧ trim name = head ∧ s = name ++ '[' :: inside ++ [']'] := by
  simp only [subscript?, Option.bind_eq_bind, Option.bind_eq_some_iff, Option.pure_def,
    Option.some.injEq, Prod.mk.injEq, Prod.exists, Text.stripSuffix?_eq_some_iff]
  constructor
  · rintro ⟨name, rest, split, inside, rfl, rfl, rfl⟩
    obtain ⟨⟨c, bracket, rfl⟩, none⟩ := Text.splitAtFirst?_spec split
    obtain rfl := beq_iff_eq.1 bracket
    exact ⟨name, fun h => by simpa using none _ h, rfl, by simp⟩
  · rintro ⟨name, none, rfl, rfl⟩
    refine ⟨name, inside ++ [']'], ?_, inside, rfl, rfl, rfl⟩
    rw [List.append_assoc]
    refine Text.splitAtFirst?_append (fun d hd => beq_false_of_ne ?_) rfl _
    rintro rfl
    exact none hd

/-! What is read in the next round is shorter. -/

lemma length_lt_of_mem_splitOutside {sep : Char} {s m : List Char}
    (several : 1 < (splitOutside sep s).length) (h : m ∈ splitOutside sep s) :
    m.length < s.length := by
  have pieces := length_of_mem_splitOutsideFrom h
  rw [splitOutside] at several
  rw [List.length_nil] at pieces
  omega

lemma length_lt_of_subscript? {s head inside : List Char}
    (found : subscript? s = some (head, inside)) : inside.length < s.length := by
  obtain ⟨name, -, -, rfl⟩ := subscript?_eq_some_iff.1 found
  simp only [List.length_append, List.length_cons]
  omega

/-- Fuel above the length of an annotation is enough. -/
lemma typeFrom_eq_of_lt {fuel fuel' : Nat} {s : List Char} (enough : s.length < fuel)
    (enough' : s.length < fuel') : typeFrom fuel s = typeFrom fuel' s := by
  induction fuel generalizing fuel' s with
  | zero => omega
  | succ fuel ih =>
    cases fuel' with
    | zero => omega
    | succ fuel' =>
      have shorter : (unquote (trim s)).length ≤ s.length :=
        (length_unquote_le _).trans (Text.length_trim_le s)
      rw [typeFrom, typeFrom]
      split_ifs with bars
      · refine congrArg (·, true) (typeOfUnion_congr fun m hm => ?_)
        have := length_lt_of_mem_splitOutside bars hm
        exact ih (by omega) (by omega)
      · cases found : subscript? (unquote (trim s)) with
        | none => rfl
        | some parts =>
          have := length_lt_of_subscript? found
          exact typeOfSubscript_congr fun m hm => ih (by omega) (by omega)

/-- The type of an annotation, character by character. -/
def typeAt (s : List Char) : TypeRef × Bool := typeFrom (s.length + 1) s

/-- A text without quotes. -/
def Unquoted (s : List Char) : Prop := ∀ c ∈ s, c ≠ '"' ∧ c ≠ '\''

@[simp] lemma unquoted_append {s t : List Char} :
    Unquoted (s ++ t) ↔ Unquoted s ∧ Unquoted t :=
  List.forall_mem_append

@[simp] lemma unquoted_cons {c : Char} {s : List Char} :
    Unquoted (c :: s) ↔ (c ≠ '"' ∧ c ≠ '\'') ∧ Unquoted s :=
  List.forall_mem_cons

@[simp] lemma unquoted_nil : Unquoted [] := nofun

lemma unquoted_of_isNameChar {name : List Char} (plain : ∀ c ∈ name, Text.isNameChar c = true) :
    Unquoted name := fun c hc =>
  ⟨Text.ne_of_isNameChar (plain c hc) (by decide), Text.ne_of_isNameChar (plain c hc) (by decide)⟩

lemma unquote_eq_self {s : List Char} (unquoted : Unquoted s) : unquote s = s := by
  have plain : ∀ c ∈ s, (c == '"' || c == '\'') = false := by
    intro c hc
    simpa using unquoted c hc
  rw [unquote, Text.dropWhile_eq_self fun c hc => plain c (List.mem_of_mem_head? hc),
    Text.dropRightWhile_eq_self fun c hc => plain c (List.mem_of_mem_getLast? hc)]

lemma Unquoted.trim {s : List Char} (unquoted : Unquoted s) : Unquoted (trim s) := by
  obtain ⟨a, b, -, -, whole⟩ := Text.exists_blanks s
  intro c hc
  refine unquoted c ?_
  rw [whole]
  exact List.mem_append_left b (List.mem_append_right a hc)

/-- **Annotations are read by the rounds alone**: of one without quotes, the members between the
bars count if there are any, else the arguments in square brackets, else the name. -/
theorem typeAt_eq {s : List Char} (unquoted : Unquoted s) :
    typeAt s =
      if 1 < (splitOutside '|' s).length then (typeOfUnion typeAt (splitOutside '|' s), true)
      else match subscript? (trim s) with
        | none => (typeOfName (trim s), false)
        | some (head, inside) => typeOfSubscript typeAt head inside := by
  have fuel : ∀ m : List Char, m.length < s.length → typeFrom s.length m = typeAt m :=
    fun m shorter => typeFrom_eq_of_lt shorter (Nat.lt_succ_self _)
  have pieces : splitOutside '|' (trim s) = splitOutside '|' s := splitOutside_trim (by decide) s
  have length := Text.length_trim_le s
  rw [typeAt, typeFrom, unquote_eq_self unquoted.trim, pieces]
  split_ifs with bars
  · refine congrArg (·, true) (typeOfUnion_congr fun m hm => fuel m ?_)
    exact length_lt_of_mem_splitOutside bars (pieces ▸ hm)
  · cases found : subscript? (trim s) with
    | none => rfl
    | some parts =>
      have := length_lt_of_subscript? found
      exact typeOfSubscript_congr fun m hm => fuel m (by omega)

lemma typeOf_eq (s : String) : typeOf s = typeAt s.toList := by
  rw [typeOf, typeAt, String.length_toList]

lemma typeAt_trim (s : List Char) : typeAt (trim s) = typeAt s := by
  have rounds : typeFrom (s.length + 1) (trim s) = typeFrom (s.length + 1) s := by
    rw [typeFrom, typeFrom, Text.trim_trim]
  have length := Text.length_trim_le s
  rw [typeAt, typeFrom_eq_of_lt (Nat.lt_succ_self _) (Nat.lt_succ_of_le length), rounds, typeAt]

/-! ## Unions and arguments -/

lemma splitOutside_of_not_mem {sep : Char} {s : List Char} (whole : sep ∉ outside s) :
    splitOutside sep s = [trim s] :=
  splitOutsideFrom_of_not_mem whole []

/-- A separator behind properly nested brackets ends the pieces of what is in front of it. -/
lemma splitOutside_append {sep : Char} (plain : isOpening sep = false ∧ isClosing sep = false)
    {s : List Char} (nested : nests s = true) (r : List Char) :
    splitOutside sep (s ++ sep :: r) = splitOutside sep s ++ splitOutside sep r :=
  splitOutsideFrom_append plain nested [] r

lemma typeAt_of_bars {s : List Char} (unquoted : Unquoted s)
    (bars : 1 < (splitOutside '|' s).length) :
    typeAt s = (typeOfUnion typeAt (splitOutside '|' s), true) := by
  rw [typeAt_eq unquoted, if_pos bars]

section Subscripts

variable {name inside : List Char}

/-- Nothing but the name is outside of the brackets of a name with arguments. -/
lemma outside_subscript (plain : ∀ c ∈ name, Text.isNameChar c = true)
    (nested : nests inside = true) : outside (name ++ '[' :: inside ++ [']']) = name := by
  have front : ∀ r, outsideFrom 0 (name ++ r) = name ++ outsideFrom 0 r := by
    intro r
    induction name with
    | nil => rfl
    | cons c name ih =>
      obtain ⟨hc, rest⟩ := List.forall_mem_cons.1 plain
      rw [List.cons_append, outsideFrom, (brackets_of_isNameChar hc).1,
        (brackets_of_isNameChar hc).2]
      simp only [Bool.false_eq_true, if_false, if_true, ih rest, List.cons_append]
  have opened : outsideFrom 0 ('[' :: (inside ++ [']'])) = outsideFrom 1 (inside ++ [']']) := rfl
  have passed : outsideFrom 1 (inside ++ [']']) = outsideFrom 1 [']'] :=
    outsideFrom_append nested Int.one_pos [']']
  rw [outside, List.append_assoc, front, List.cons_append, opened, passed]
  exact List.append_nil name

/-- A name with arguments in square brackets, whatever they are, is no union. -/
lemma typeAt_subscript (some : name ≠ []) (plain : ∀ c ∈ name, Text.isNameChar c = true)
    (unquoted : Unquoted inside) (nested : nests inside = true) :
    typeAt (name ++ '[' :: inside ++ [']']) = typeOfSubscript typeAt name inside := by
  obtain ⟨c, r, rfl⟩ := List.exists_cons_of_ne_nil some
  have visible : ∀ d ∈ c :: r, isBlank d = false :=
    fun d hd => Text.isBlank_of_isNameChar (plain d hd)
  have whole : trim (c :: r ++ '[' :: inside ++ [']']) = c :: r ++ '[' :: inside ++ [']'] := by
    refine Text.trim_eq_self (fun d hd => visible d ?_) fun d hd => ?_
    · obtain rfl : c = d := by simpa using hd
      exact List.mem_cons_self
    · rw [List.getLast?_concat] at hd
      cases hd
      rfl
  have bar : '|' ∉ outside (c :: r ++ '[' :: inside ++ [']']) := by
    rw [outside_subscript plain nested]
    exact fun h => Text.ne_of_isNameChar (plain _ h) (by decide) rfl
  have parts : subscript? (c :: r ++ '[' :: inside ++ [']']) = Option.some (c :: r, inside) := by
    refine subscript?_eq_some_iff.2 ⟨c :: r, fun h => ?_, ?_, rfl⟩
    · exact Text.ne_of_isNameChar (plain _ h) (by decide) rfl
    · exact Text.trim_eq_self (fun d hd => visible d (List.mem_of_mem_head? hd))
        fun d hd => visible d (List.mem_of_mem_getLast? hd)
  have plainly : Unquoted (c :: r ++ '[' :: inside ++ [']']) := by
    rw [unquoted_append, unquoted_append, unquoted_cons (c := '[')]
    exact ⟨⟨unquoted_of_isNameChar plain, by decide, unquoted⟩, unquoted_cons.2 ⟨by decide, nofun⟩⟩
  rw [typeAt_eq plainly, splitOutside_of_not_mem bar, whole, parts]
  rfl

end Subscripts

/-! ## What may be absent -/

lemma present_append (l m : List (List Char)) : present (l ++ m) = present l ++ present m :=
  List.filter_append ..

/-- `None` among the members of a union makes no difference to its type. -/
lemma typeOfUnion_append_none (f : List Char → TypeRef × Bool) (l : List (List Char)) :
    typeOfUnion f (l ++ ["None".toList]) = typeOfUnion f l := by
  have none : present ["None".toList] = [] := by decide
  rw [typeOfUnion, present_append, none, List.append_nil, typeOfUnion]

lemma typeOfUnion_none_append (f : List Char → TypeRef × Bool) (l : List (List Char)) :
    typeOfUnion f (["None".toList] ++ l) = typeOfUnion f l := by
  have none : present ["None".toList] = [] := by decide
  rw [typeOfUnion, present_append, none, List.nil_append, typeOfUnion]

/-- The five ways to write that there may be no value of a type. -/
def optionalSpellings (x : String) : List String :=
  ["Optional[" ++ x ++ "]", "Union[" ++ x ++ ", None]", "Union[None, " ++ x ++ "]", x ++ " | None",
    "None | " ++ x]

/-- What can stand for a type in each of these ways. -/
structure IsMember (x : List Char) : Prop where
  unquoted : Unquoted x
  nested : nests x = true
  whole : ',' ∉ outside x
  present : trim x ≠ "None".toList

namespace IsMember

variable {x : List Char}

lemma typeOfUnion_trim (member : IsMember x) : typeOfUnion typeAt [trim x] = (typeAt x).1 := by
  have other : (trim x != "None".toList) = true := bne_iff_ne.2 member.present
  have only : Python.present [trim x] = [trim x] := by
    rw [Python.present, List.filter_singleton, other]
    rfl
  rw [typeOfUnion, only]
  exact congrArg Prod.fst (typeAt_trim x)

/-- The members between the bars of a text make up the type of the text, also if there is only one
of them. -/
lemma typeOfUnion_eq (member : IsMember x) :
    typeOfUnion typeAt (splitOutside '|' x) = (typeAt x).1 := by
  by_cases bars : '|' ∈ outside x
  · have several : 1 < (splitOutside '|' x).length := by
      have := List.count_pos_iff.2 bars
      rw [splitOutside, length_splitOutsideFrom, ← outside]
      omega
    rw [typeAt_of_bars member.unquoted several]
  · rw [splitOutside_of_not_mem bars, member.typeOfUnion_trim]

/-- The arguments of `Union` of which one is `None` make up the type of the other. -/
lemma typeAt_unionOf (member : IsMember x) {l m : List Char} (unquoted : Unquoted (l ++ ',' :: m))
    (nested : nests l = true) (nested' : nests m = true)
    (pieces : splitOutside ',' l ++ splitOutside ',' m = [trim x] ++ ["None".toList] ∨
      splitOutside ',' l ++ splitOutside ',' m = ["None".toList] ++ [trim x]) :
    typeAt ("Union".toList ++ '[' :: (l ++ ',' :: m) ++ [']']) = ((typeAt x).1, true) := by
  have whole : nests (l ++ ',' :: m) = true := nests_append nested nested'
  have read : typeAt ("Union".toList ++ '[' :: (l ++ ',' :: m) ++ [']']) =
      (typeOfUnion typeAt (splitOutside ',' l ++ splitOutside ',' m),
        (splitOutside ',' l ++ splitOutside ',' m).contains "None".toList) := by
    rw [typeAt_subscript (by decide) (List.all_eq_true.1 rfl) unquoted whole,
      ← splitOutside_append (by decide) nested]
    rfl
  rw [read]
  rcases pieces with pieces | pieces
  · rw [pieces, typeOfUnion_append_none, member.typeOfUnion_trim]
    simp
  · rw [pieces, typeOfUnion_none_append, member.typeOfUnion_trim]
    simp

/-- The members of a union of which one is `None` make up the type of the others. -/
lemma typeAt_bars (member : IsMember x) {s : List Char} (unquoted : Unquoted s)
    (pieces : splitOutside '|' s = splitOutside '|' x ++ ["None".toList] ∨
      splitOutside '|' s = ["None".toList] ++ splitOutside '|' x) :
    typeAt s = ((typeAt x).1, true) := by
  have several : 1 < (splitOutside '|' s).length := by
    have : 0 < (splitOutside '|' x).length := by
      rw [splitOutside, length_splitOutsideFrom]
      omega
    rcases pieces with pieces | pieces
    all_goals
      rw [pieces, List.length_append, List.length_singleton]
      omega
  rw [typeAt_of_bars unquoted several]
  rcases pieces with pieces | pieces
  · rw [pieces, typeOfUnion_append_none, member.typeOfUnion_eq]
  · rw [pieces, typeOfUnion_none_append, member.typeOfUnion_eq]

end IsMember

/-- **What may be absent means the same in all spellings**: the type of what is written, which may
be absent. -/
theorem optional_spellings_agree {x : String} (member : IsMember x.toList) :
    ∀ s ∈ optionalSpellings x, typeOf s = ((typeOf x).1, true) := by
  have blank : allBlank [' '] = true := by decide
  have only : splitOutside ',' x.toList = [trim x.toList] := splitOutside_of_not_mem member.whole
  have unquoted := member.unquoted
  simp only [optionalSpellings, List.forall_mem_cons, List.not_mem_nil, false_imp_iff,
    forall_true_iff, and_true, typeOf_eq]
  refine ⟨?_, ?_, ?_, ?_, ?_⟩
  · have text : ("Optional[" ++ x ++ "]").toList =
        "Optional".toList ++ '[' :: x.toList ++ [']'] := by simp
    rw [text, typeAt_subscript (by decide) (List.all_eq_true.1 rfl) unquoted member.nested]
    rfl
  · have text : ("Union[" ++ x ++ ", None]").toList =
        "Union".toList ++ '[' :: (x.toList ++ ',' :: " None".toList) ++ [']'] := by simp
    rw [text]
    refine member.typeAt_unionOf (by simpa using unquoted) member.nested (by decide) (.inl ?_)
    rw [only]
    rfl
  · have text : ("Union[None, " ++ x ++ "]").toList =
        "Union".toList ++ '[' :: ("None".toList ++ ',' :: ([' '] ++ x.toList)) ++ [']'] := by simp
    rw [text]
    refine member.typeAt_unionOf (by simpa using unquoted) (by decide) member.nested (.inr ?_)
    rw [splitOutside_blanks_append (by decide) blank, only]
    rfl
  · have text : (x ++ " | None").toList = (x.toList ++ [' ']) ++ '|' :: " None".toList := by simp
    have nested : nests (x.toList ++ [' ']) = true := nests_append member.nested rfl
    rw [text]
    refine member.typeAt_bars (by simpa using unquoted) (.inl ?_)
    rw [splitOutside_append (by decide) nested, splitOutside_append_blanks (by decide) _ blank]
    rfl
  · have text : ("None | " ++ x).toList = "None ".toList ++ '|' :: ([' '] ++ x.toList) := by simp
    rw [text]
    refine member.typeAt_bars (by simpa using unquoted) (.inr ?_)
    rw [splitOutside_append (by decide) (by decide), splitOutside_blanks_append (by decide) blank]
    rfl

/-- A union of a list and a map of another module, with blanks around. -/
theorem optional_spellings_agree_nested :
    IsMember " list[Dict[str, int]] | models.Item ".toList ∧
      ∀ s ∈ optionalSpellings " list[Dict[str, int]] | models.Item ",
        typeOf s = ((typeOf " list[Dict[str, int]] | models.Item ").1, true) := by
  have member : IsMember " list[Dict[str, int]] | models.Item ".toList :=
    ⟨by simp, by decide, by decide, by decide⟩
  exact ⟨member, optional_spellings_agree member⟩

end ApiCanon.Python
