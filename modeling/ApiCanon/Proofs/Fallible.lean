import Mathlib.Tactic.Lemma

/-!
# Computations that may fail

What is known of a computation that has succeeded: each of its steps has (`bind_eq_ok_iff`), and
what its steps ensure goes from one to the next (`Ensures.bind`).
-/

namespace ApiCanon

lemma ok_bind {ε α β : Type} (a : α) (f : α → Except ε β) : (Except.ok a >>= f) = f a := rfl

lemma bind_eq_ok_iff {ε α β : Type} {x : Except ε α} {f : α → Except ε β} {b : β} :
    (x >>= f) = .ok b ↔ ∃ a, x = .ok a ∧ f a = .ok b := by
  cases x with
  | error e => exact iff_of_false nofun nofun
  | ok a => exact ⟨fun h => ⟨a, rfl, h⟩, fun ⟨_, same, h⟩ => Except.ok.inj same ▸ h⟩

lemma map_eq_ok_iff {ε α β : Type} {f : α → β} {x : Except ε α} {b : β} :
    x.map f = .ok b ↔ ∃ a, x = .ok a ∧ f a = b := by
  cases x with
  | error e => exact iff_of_false nofun nofun
  | ok a => simp [Except.map]

/-- Whatever a computation succeeds with is as `Q` says. -/
def Ensures {ε α : Type} (Q : α → Prop) (a : Except ε α) : Prop := ∀ x, a = .ok x → Q x

namespace Ensures

variable {ε α β : Type} {Q : α → Prop} {R : β → Prop}

lemma ok {x : α} (h : Q x) : Ensures Q (.ok x : Except ε α) := by
  intro y hy
  cases hy
  exact h

lemma error (e : ε) : Ensures Q (.error e : Except ε α) := fun _ h => nomatch h

lemma map {a : Except ε α} {f : α → β} (h : Ensures Q a) (hf : ∀ x, Q x → R (f x)) :
    Ensures R (a.map f) := by
  intro y hy
  cases a with
  | error e => cases hy
  | ok x =>
    cases hy
    exact hf x (h x rfl)

lemma bind {a : Except ε α} {f : α → Except ε β} (h : Ensures Q a)
    (hf : ∀ x, Q x → Ensures R (f x)) : Ensures R (a >>= f) := by
  intro y hy
  obtain ⟨x, hx, hy⟩ := bind_eq_ok_iff.1 hy
  exact hf x (h x hx) y hy

lemma anything (a : Except ε α) : Ensures (fun _ => True) a := fun _ _ => trivial

end Ensures

end ApiCanon
