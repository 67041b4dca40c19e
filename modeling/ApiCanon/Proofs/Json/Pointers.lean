import ApiCanon.Json.Value
import ApiCanon.Proofs.Text.Search

/-!
# Segments of pointers

A name is written as a segment of a pointer, and the segment stands for the name again
(`unescapeSegment_escapeSegment`).  A name is its own segment exactly if it has neither a tilde nor
a slash in it (`escapeSegment_eq_self_iff`).  A pointer is followed segment by segment
(`follow_append`).
-/

namespace ApiCanon.Json

/-! ## Segments -/

lemma escapeSegment_cons (c : Char) (s : List Char) : escapeSegment (c :: s) =
    (if c = '~' then ['~', '0'] else if c = '/' then ['~', '1'] else [c]) ++ escapeSegment s := rfl

/-- A segment has no slash in it. -/
lemma slash_not_mem_escapeSegment (s : List Char) : '/' ∉ escapeSegment s := by
  intro mem
  obtain ⟨c, -, mem⟩ := List.mem_flatMap.1 mem
  split_ifs at mem with tilde slash
  · simp at mem
  · simp at mem
  · exact slash (List.mem_singleton.1 mem).symm

lemma unescapeSlashes_cons {c : Char} (other : c ≠ '~') (s : List Char) :
    unescapeSlashes (c :: s) = c :: unescapeSlashes s := by
  rw [unescapeSlashes]
  exact fun _ same _ => other same

lemma unescapeTildes_cons {c : Char} (other : c ≠ '~') (s : List Char) :
    unescapeTildes (c :: s) = c :: unescapeTildes s := by
  rw [unescapeTildes]
  exact fun _ same _ => other same

/-- Once the slashes are back, only the tildes are escaped. -/
lemma unescapeSlashes_escapeSegment (s : List Char) : unescapeSlashes (escapeSegment s) =
    s.flatMap fun c => if c = '~' then ['~', '0'] else [c] := by
  induction s with
  | nil => rfl
  | cons c s ih =>
    rw [escapeSegment_cons, List.flatMap_cons, ← ih]
    split_ifs with tilde slash
    · have second : unescapeSlashes ('0' :: escapeSegment s) =
          '0' :: unescapeSlashes (escapeSegment s) := unescapeSlashes_cons (by decide) _
      rw [List.cons_append, List.singleton_append, unescapeSlashes, second]
      · rfl
      · exact fun _ _ same => absurd (List.cons.inj same).1 (by decide)
    · subst slash
      rfl
    · exact unescapeSlashes_cons tilde _

/-- The segment of a name stands for the name. -/
theorem unescapeSegment_escapeSegment (s : List Char) : unescapeSegment (escapeSegment s) = s := by
  rw [unescapeSegment, unescapeSlashes_escapeSegment]
  induction s with
  | nil => rfl
  | cons c s ih =>
    rw [List.flatMap_cons]
    split_ifs with tilde
    · subst tilde
      exact congrArg ('~' :: ·) ih
    · rw [List.singleton_append, unescapeTildes_cons tilde, ih]

/-- A name is its own segment exactly if nothing in it is escaped. -/
theorem escapeSegment_eq_self_iff (s : List Char) : escapeSegment s = s ↔ '~' ∉ s ∧ '/' ∉ s := by
  constructor
  · intro same
    refine ⟨fun tilde => ?_, same ▸ slash_not_mem_escapeSegment s⟩
    -- every tilde brings a character more, and no character is lost
    have grows : ∀ l : List Char, l.length + l.count '~' ≤ (escapeSegment l).length := by
      intro l
      induction l with
      | nil => exact Nat.le_refl _
      | cons c l ih =>
        rw [escapeSegment_cons, List.length_append, List.length_cons]
        by_cases h : c = '~'
        · subst h
          rw [List.count_cons_self, if_pos rfl]
          simp only [List.length_cons, List.length_nil]
          omega
        · have one :
              1 ≤ (if c = '~' then ['~', '0'] else if c = '/' then ['~', '1'] else [c]).length := by
            split_ifs <;> simp
          rw [List.count_cons_of_ne h]
          omega
    have more := grows s
    have present := List.count_pos_iff.2 tilde
    rw [same] at more
    omega
  · rintro ⟨tilde, slash⟩
    induction s with
    | nil => rfl
    | cons c s ih =>
      rw [List.mem_cons, not_or] at tilde slash
      rw [escapeSegment_cons, if_neg (Ne.symm tilde.1), if_neg (Ne.symm slash.1),
        ih tilde.2 slash.2]
      rfl

/-! ## Following -/

namespace Value

lemma follow_nil (v : Value) : v.follow [] = some v := by
  cases v <;> rw [follow]

lemma follow_field (f : Fields) (name : List Char) :
    (Value.object f).follow [name] = Fields.get? (String.ofList name) f := by
  rw [follow]
  cases Fields.get? (String.ofList name) f with
  | none => rfl
  | some v => exact follow_nil v

/-- The way to a part of a part goes by the part. -/
lemma follow_append (v : Value) (names others : List (List Char)) :
    v.follow (names ++ others) = (v.follow names).bind fun w => w.follow others := by
  induction names generalizing v with
  | nil => rw [follow_nil, List.nil_append, Option.bind_some]
  | cons n names ih =>
    rw [List.cons_append]
    cases v with
    | object f => simp only [follow, ih, Option.bind_assoc]
    | array a => simp only [follow, ih, Option.bind_assoc]
    | null | bool | number | string => simp only [follow, Option.bind_none]

end Value

end ApiCanon.Json
