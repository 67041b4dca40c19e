import ApiCanon.Json.Reader
import ApiCanon.Json.Value
import ApiCanon.Proofs.Fallible
import ApiCanon.Proofs.Json.Documents
import Mathlib.Tactic.SplitIfs

/-!
# Documents that are read

What reading ensures of all values is proved once, by induction on the calls (`reads`), for whatever
goes from the parts of a value to the value, with the number of brackets that may still be opened
(`Builds`).

So no object in a document that is read has two fields of one name (`distinct_of_read`): fields are
put one after another, and a repeated name takes the place of the field that is there.  The same
holds of every part of such a document, whichever way the part is found.
-/

namespace ApiCanon.Json

/-! ## Fields put one after another -/

lemma Fields.mem_put {k : String} {v : Value} {f : Fields} {p : String × Value}
    (h : p ∈ f.put k v) : p = (k, v) ∨ p ∈ f := by
  induction f with
  | nil => exact Or.inl (List.mem_singleton.1 h)
  | cons q f ih =>
    obtain ⟨l, w⟩ := q
    rw [Fields.put] at h
    split_ifs at h with same
    · rcases List.mem_cons.1 h with h | h
      · exact Or.inl h
      · exact Or.inr (List.mem_cons_of_mem _ h)
    · rcases List.mem_cons.1 h with h | h
      · exact Or.inr (h ▸ List.mem_cons_self)
      · rcases ih h with h | h
        · exact Or.inl h
        · exact Or.inr (List.mem_cons_of_mem _ h)

namespace Value

lemma Distinct.put {k : String} {v : Value} {f : Fields} (hf : (Value.object f).Distinct)
    (hv : v.Distinct) : (Value.object (Fields.put k v f)).Distinct := by
  refine .object (Fields.nodup_put hf.keys) fun p hp => ?_
  rcases Fields.mem_put hp with rfl | hp
  · exact hv
  · exact hf.value p hp

lemma Distinct.noFields : (Value.object []).Distinct := .object .nil nofun

end Value

/-! ## Reading -/

/-- What holds of a value, where a number of brackets may still be opened, if it holds of its parts:
`P` is about values, and `F` about the fields of an object that have been read. -/
structure Builds (P : Nat → Value → Prop) (F : Nat → Fields → Prop) : Prop where
  null : ∀ d, P d .null
  bool : ∀ d b, P d (.bool b)
  number : ∀ d n, P d (.number n)
  string : ∀ d s, P d (.string s)
  array : ∀ {d a}, 1 < d → (∀ v ∈ a, P (d - 1) v) → P d (.array a)
  object : ∀ {d f}, 1 < d → F (d - 1) f → P d (.object f)
  noFields : ∀ d, F d []
  put : ∀ {d k v f}, F d f → P d v → F d (f.put k v)

/-- What a bound on the calls ensures of each of the five readers. -/
structure Reads (P : Nat → Value → Prop) (F : Nat → Fields → Prop) (fuel : Nat) : Prop where
  value : ∀ depth s, Ensures (fun x => P depth x.1) (readValue fuel depth s)
  items : ∀ depth first s, Ensures (fun x => ∀ v ∈ x.1, P depth v) (readItems fuel depth first s)
  item : ∀ depth s, Ensures (fun x => ∀ v ∈ x.1, P depth v) (readItem fuel depth s)
  fields : ∀ depth first (seen : Fields) s, F depth seen →
    Ensures (fun x => F depth x.1) (readFields fuel depth first seen s)
  field : ∀ depth (seen : Fields) s, F depth seen →
    Ensures (fun x => F depth x.1) (readField fuel depth seen s)

lemma readWord_ensures {Q : Value → Prop} {v : Value} (hv : Q v) (word s : List Char) :
    Ensures (fun x => Q x.1) (readWord word v s) := by
  induction word generalizing s with
  | nil => exact .ok hv
  | cons w ws ih =>
    cases s with
    | nil => exact .error _
    | cons c r =>
      rw [readWord]
      split_ifs
      · exact ih r
      · exact .error _

variable {P : Nat → Value → Prop} {F : Nat → Fields → Prop}

/-- One more call. -/
lemma Reads.succ (builds : Builds P F) {fuel : Nat} (h : Reads P F fuel) :
    Reads P F (fuel + 1) where
  value := by
    intro depth s
    rw [readValue]
    split
    · exact .error _
    · exact readWord_ensures (builds.null depth) _ _
    · exact readWord_ensures (builds.bool depth true) _ _
    · exact readWord_ensures (builds.bool depth false) _ _
    · exact (Ensures.anything _).map fun x _ => builds.number depth x.1
    · exact (Ensures.anything _).map fun x _ => builds.string depth _
    · split_ifs with closed
      · exact .error _
      · exact (h.items _ _ _).map fun x hx => builds.array (Nat.lt_of_not_le closed) hx
    · split_ifs with closed
      · exact .error _
      · exact (h.fields _ _ _ _ (builds.noFields _)).map fun x hx =>
          builds.object (Nat.lt_of_not_le closed) hx
    · split_ifs
      · exact (Ensures.anything _).map fun x _ => builds.number depth x.1
      · exact .error _
  items := by
    intro depth first s
    rw [readItems]
    split
    · exact .error _
    · exact .ok fun v hv => absurd hv List.not_mem_nil
    · split_ifs
      · exact h.item _ _
      · split
        · exact .error _
        · exact .error _
        · exact h.item _ _
      · exact .error _
  item := by
    intro depth s
    rw [readItem]
    refine (h.value depth s).bind fun x hx => (h.items depth false x.2).bind fun y hy => .ok ?_
    exact fun v hv => (List.mem_cons.1 hv).elim (fun e => e ▸ hx) (hy v)
  fields := by
    intro depth first seen s hseen
    rw [readFields]
    split
    · exact .error _
    · exact .ok hseen
    · split_ifs
      · exact h.field _ _ _ hseen
      · exact .error _
      · split
        · exact .error _
        · exact h.field _ _ _ hseen
        · exact .error _
        · exact .error _
      · exact .error _
  field := by
    intro depth seen s hseen
    rw [readField]
    refine (Ensures.anything _).bind fun x _ => ?_
    obtain ⟨k, r⟩ := x
    dsimp only
    split
    · exact .error _
    · exact (h.value depth _).bind fun x hx => h.fields _ _ _ _ (builds.put hseen hx)
    · exact .error _

lemma reads (builds : Builds P F) (fuel : Nat) : Reads P F fuel := by
  induction fuel with
  | zero =>
    constructor
    · intro depth s
      rw [readValue]
      exact .error _
    · intro depth first s
      rw [readItems]
      exact .error _
    · intro depth s
      rw [readItem]
      exact .error _
    · intro depth first seen s _
      rw [readFields]
      exact .error _
    · intro depth seen s _
      rw [readField]
      exact .error _
  | succ fuel ih => exact ih.succ builds

/-- What reading ensures of a document. -/
theorem ensures_read (builds : Builds P F) {s : List Char} {v : Value} (h : Json.read s = .ok v) :
    P depthLimit v := by
  have chars : Ensures (P depthLimit) (readChars s) := by
    refine ((reads builds _).value _ s).bind fun x hx => ?_
    dsimp only
    split
    · exact .ok hx
    · exact .error _
  rw [Json.read] at h
  cases hr : readChars s with
  | error e =>
    rw [hr] at h
    cases h
  | ok w =>
    rw [hr] at h
    exact Except.ok.inj h ▸ chars w hr

/-- No object in a document that is read has two fields of one name. -/
theorem distinct_of_read {s : List Char} {v : Value} (h : Json.read s = .ok v) : v.Distinct :=
  ensures_read (P := fun _ v => v.Distinct) (F := fun _ f => (Value.object f).Distinct)
    { null := fun _ => .null
      bool := fun _ b => .bool b
      number := fun _ n => .number n
      string := fun _ s => .string s
      array := fun _ items => .array items
      object := fun _ fields => fields
      noFields := fun _ => .noFields
      put := fun fields value => fields.put value } h

/-! ## Parts of documents -/

namespace Value.Distinct

variable {v w : Value}

lemma get? {k : String} (h : v.Distinct) (hw : v.get? k = some w) : w.Distinct := by
  cases v with
  | object f => exact h.value _ (Fields.mem_of_get? hw)
  | _ => cases hw

lemma asArray? {a : List Value} (h : v.Distinct) (ha : v.asArray? = some a) :
    ∀ w ∈ a, w.Distinct := by
  cases v with
  | array b => exact Option.some.inj ha ▸ h.item
  | _ => cases ha

lemma asObject? {f : Fields} (h : v.Distinct) (hf : v.asObject? = some f) :
    (Value.object f).Distinct := by
  cases v with
  | object g => exact Option.some.inj hf ▸ h
  | _ => cases hf

lemma follow {names : List (List Char)} (h : v.Distinct) (hw : v.follow names = some w) :
    w.Distinct := by
  induction names generalizing v with
  | nil =>
    rw [Value.follow] at hw
    exact Option.some.inj hw ▸ h
  | cons n r ih =>
    cases v with
    | object f =>
      rw [Value.follow] at hw
      obtain ⟨u, hu, hw⟩ := Option.bind_eq_some_iff.1 hw
      exact ih (h.value _ (Fields.mem_of_get? hu)) hw
    | array a =>
      rw [Value.follow] at hw
      obtain ⟨u, hu, hw⟩ := Option.bind_eq_some_iff.1 hw
      obtain ⟨i, -, hu⟩ := Option.bind_eq_some_iff.1 hu
      exact ih (h.item u (List.mem_of_getElem? hu)) hw
    | _ => simp [Value.follow] at hw

/-- What a pointer leads to in a document. -/
lemma pointer? {p : List Char} (h : v.Distinct) (hw : v.pointer? p = some w) : w.Distinct := by
  unfold Value.pointer? at hw
  split at hw
  · exact Option.some.inj hw ▸ h
  · exact h.follow hw
  · cases hw

end Value.Distinct

end ApiCanon.Json
