import Mathlib.Data.List.Nodup
import Mathlib.Tactic.Lemma

/-!
# Lists with gaps

Things of which some have a text and others lack one: those that have one (`supplied`), those that
lack one (`lacking`), and the texts when the gaps have been filled from another list, in order
(`filled`).  Who has a text in the end has it from the first list or from the second one
(`supplied_filled_perm`).
-/

namespace ApiCanon

variable {α β : Type} {xs : List α} {ts : List (Option String)}

/-- Those that have a text, each with its text. -/
def supplied : List α → List (Option String) → List (α × String)
  | x :: xs, some t :: ts => (x, t) :: supplied xs ts
  | _ :: xs, none :: ts => supplied xs ts
  | _, _ => []

/-- Those that lack a text. -/
def lacking : List α → List (Option String) → List α
  | _ :: xs, some _ :: ts => lacking xs ts
  | x :: xs, none :: ts => x :: lacking xs ts
  | _, _ => []

/-- Texts of which those that lack are taken from others, in order. -/
def filled : List (Option String) → List (Option String) → List (Option String)
  | some t :: ts, more => some t :: filled ts more
  | none :: ts, t :: more => t :: filled ts more
  | none :: ts, [] => none :: filled ts []
  | [], _ => []

lemma length_filled (ts more : List (Option String)) : (filled ts more).length = ts.length := by
  induction ts, more using filled.induct with
  | case1 t ts more ih => simp [filled, ih]
  | case2 ts t more ih => simp [filled, ih]
  | case3 ts ih => simp [filled, ih]
  | case4 more => rfl

/-- A text that does not lack stays. -/
lemma getElem?_filled_of_some {more : List (Option String)} {i : Nat} {t : String}
    (h : ts[i]? = some (some t)) : (filled ts more)[i]? = some (some t) := by
  induction ts generalizing i more with
  | nil => cases h
  | cons u ts ih =>
    cases i with
    | zero =>
      obtain rfl := Option.some.inj h
      rfl
    | succ i => rcases u with _ | u <;> rcases more with _ | ⟨v, more⟩ <;> exact ih h

lemma mem_supplied_iff {x : α} {t : String} :
    (x, t) ∈ supplied xs ts ↔ ∃ i : Nat, xs[i]? = some x ∧ ts[i]? = some (some t) := by
  induction xs generalizing ts with
  | nil => exact iff_of_false (by rcases ts with _ | ⟨_ | u, ts⟩ <;> exact List.not_mem_nil) nofun
  | cons y xs ih =>
    rcases ts with _ | ⟨_ | u, ts⟩
    · exact iff_of_false List.not_mem_nil nofun
    · rw [supplied, ih]
      constructor
      · rintro ⟨i, hx, ht⟩
        exact ⟨i + 1, hx, ht⟩
      · rintro ⟨_ | i, hx, ht⟩
        · cases Option.some.inj ht
        · exact ⟨i, hx, ht⟩
    · rw [supplied, List.mem_cons, ih]
      constructor
      · rintro (same | ⟨i, hx, ht⟩)
        · obtain ⟨rfl, rfl⟩ := Prod.mk.inj same
          exact ⟨0, rfl, rfl⟩
        · exact ⟨i + 1, hx, ht⟩
      · rintro ⟨_ | i, hx, ht⟩
        · obtain rfl := Option.some.inj hx
          obtain rfl := Option.some.inj (Option.some.inj ht)
          exact Or.inl rfl
        · exact Or.inr ⟨i, hx, ht⟩

/-- Where nothing comes twice, each place has its own text. -/
lemma getElem_mem_supplied_iff (distinct : xs.Nodup) {i : Nat} (hi : i < xs.length) {t : String} :
    (xs[i], t) ∈ supplied xs ts ↔ ts[i]? = some (some t) := by
  rw [mem_supplied_iff]
  constructor
  · rintro ⟨j, hx, ht⟩
    obtain ⟨hj, same⟩ := List.getElem?_eq_some_iff.1 hx
    obtain rfl := (distinct.getElem_inj_iff).1 same
    exact ht
  · exact fun ht => ⟨i, List.getElem?_eq_getElem hi, ht⟩

lemma lacking_sublist (xs : List α) (ts : List (Option String)) : (lacking xs ts).Sublist xs := by
  induction xs generalizing ts with
  | nil => rcases ts with _ | ⟨_ | t, ts⟩ <;> exact List.nil_sublist _
  | cons x xs ih =>
    rcases ts with _ | ⟨_ | t, ts⟩
    · exact List.nil_sublist _
    · exact (ih ts).cons_cons x
    · exact (ih ts).cons x

lemma supplied_sublist (xs : List α) (ts : List (Option String)) :
    ((supplied xs ts).map Prod.fst).Sublist xs := by
  induction xs generalizing ts with
  | nil => rcases ts with _ | ⟨_ | t, ts⟩ <;> exact List.nil_sublist _
  | cons x xs ih =>
    rcases ts with _ | ⟨_ | t, ts⟩
    · exact List.nil_sublist _
    · exact (ih ts).cons x
    · exact (ih ts).cons_cons x

lemma supplied_map (f : α → β) (xs : List α) (ts : List (Option String)) :
    supplied (xs.map f) ts = (supplied xs ts).map fun v => (f v.1, v.2) := by
  induction xs generalizing ts with
  | nil => rfl
  | cons x xs ih =>
    rcases ts with _ | ⟨_ | t, ts⟩
    · rfl
    · exact ih ts
    · exact congrArg ((f x, t) :: ·) (ih ts)

/-- Who has a text has it from the first place or from the second one. -/
lemma supplied_filled_perm (xs : List α) (ts more : List (Option String))
    (each : more.length = (lacking xs ts).length) :
    (supplied xs ts ++ supplied (lacking xs ts) more).Perm (supplied xs (filled ts more)) := by
  induction xs generalizing ts more with
  | nil => rcases ts with _ | ⟨_ | t, ts⟩ <;> rcases more with _ | ⟨_ | u, more⟩ <;> rfl
  | cons x xs ih =>
    rcases ts with _ | ⟨_ | t, ts⟩
    · rcases more with _ | ⟨_ | u, more⟩ <;> rfl
    · rcases more with _ | ⟨_ | u, more⟩
      · cases each
      · exact ih ts more (Nat.succ.inj each)
      · exact List.perm_middle.trans ((ih ts more (Nat.succ.inj each)).cons (x, u))
    · exact (ih ts more each).cons (x, t)

lemma countP_add_length_lacking (xs : List α) (ts : List (Option String))
    (each : ts.length = xs.length) :
    ts.countP Option.isSome + (lacking xs ts).length = xs.length := by
  induction xs generalizing ts with
  | nil => rw [List.length_eq_zero_iff.1 each]; rfl
  | cons x xs ih =>
    rcases ts with _ | ⟨_ | t, ts⟩
    · cases each
    · have rest := ih ts (Nat.succ.inj each)
      simp only [List.countP_cons, Option.isSome_none, Bool.false_eq_true, if_false, lacking,
        List.length_cons]
      omega
    · have rest := ih ts (Nat.succ.inj each)
      simp only [List.countP_cons, Option.isSome_some, if_true, lacking, List.length_cons]
      omega

end ApiCanon
