import ApiCanon.Json.Decode
import ApiCanon.Proofs.Json.Documents

/-!
# Decoding records

What the fields of a record come to, by what is found under their names.  A decoder of a record
needs to know no more of an object than that: so a record is decoded from its own object by
looking up each of its fields and decoding what is there.

Places of faults are of no concern here: a decoder that succeeds has none.
-/

namespace ApiCanon.Json

/-! ## Look-up -/

namespace Fields

@[simp] lemma get?_cons (k l : String) (v : Value) (f : Fields) :
    Fields.get? k ((l, v) :: f) = if l = k then some v else Fields.get? k f := rfl

@[simp] lemma get?_append (k : String) (f g : Fields) :
    Fields.get? k (f ++ g) = (Fields.get? k f).or (Fields.get? k g) := by
  induction f with
  | nil => rfl
  | cons p f ih =>
    obtain ⟨l, v⟩ := p
    rw [List.cons_append, get?_cons, get?_cons, ih]
    split_ifs <;> rfl

/-- The search for a field with its place finds what a look-up finds. -/
lemma find?_eq (k : String) (start : Nat) (f : Fields) :
    (f.find? k start).map (·.2) = Fields.get? k f := by
  induction f generalizing start with
  | nil => rfl
  | cons p f ih =>
    obtain ⟨l, v⟩ := p
    rw [find?, get?_cons]
    split_ifs
    · rfl
    · exact ih (start + 1)

lemma exists_find? {k : String} {v : Value} {f : Fields} (h : Fields.get? k f = some v) :
    ∃ place, f.find? k 0 = some (place, v) := by
  rw [← find?_eq k 0 f] at h
  obtain ⟨⟨place, w⟩, hw, rfl⟩ := Option.map_eq_some_iff.1 h
  exact ⟨place, hw⟩

lemma find?_eq_none {k : String} {f : Fields} (h : Fields.get? k f = none) :
    f.find? k 0 = none := by
  rw [← find?_eq k 0 f] at h
  exact Option.map_eq_none_iff.1 h

end Fields

/-! ## Fields of records -/

lemma Decoder.optional_of_ne_null {α : Type} {d : Decoder α} {v : Value} (h : v ≠ .null) :
    d.optional v = (d v).map some := by
  cases v with
  | null => exact absurd rfl h
  | _ => rfl

namespace Source

variable {α : Type} {f : Fields} {k : String} {v : Value} {d : Decoder α} {a : α} (index : Nat)

lemma required_eq (h : Fields.get? k f = some v) (hd : d v = .ok a) :
    (fields f).required index k d = .value a := by
  obtain ⟨place, hp⟩ := Fields.exists_find? h
  simp only [required, find?, hp, hd]

lemma required_fault {e : DecodeError} (h : Fields.get? k f = some v) (hd : d v = .error e) :
    ∃ place, (fields f).required index k d = .fault place e := by
  obtain ⟨place, hp⟩ := Fields.exists_find? h
  exact ⟨place, by simp only [required, find?, hp, hd]⟩

lemma withDefault_eq (default : α) (h : Fields.get? k f = some v) (hd : d v = .ok a) :
    (fields f).withDefault index k d default = .value a := by
  obtain ⟨place, hp⟩ := Fields.exists_find? h
  simp only [withDefault, find?, hp, hd]

lemma withDefault_missing (default : α) (h : Fields.get? k f = none) :
    (fields f).withDefault index k d default = .value default := by
  simp only [withDefault, find?, Fields.find?_eq_none h]

lemma withDefault_fault {e : DecodeError} (default : α) (h : Fields.get? k f = some v)
    (hd : d v = .error e) : ∃ place, (fields f).withDefault index k d default = .fault place e := by
  obtain ⟨place, hp⟩ := Fields.exists_find? h
  exact ⟨place, by simp only [withDefault, find?, hp, hd]⟩

/-- A field that is written only if there is a value. -/
lemma optional_eq {enc : α → Value} {x : Option α} (h : Fields.get? k f = x.map enc)
    (back : ∀ a ∈ x, d (enc a) = .ok a) (solid : ∀ a ∈ x, enc a ≠ .null) :
    (fields f).optional index k d = .value x := by
  cases x with
  | none => exact withDefault_missing index none h
  | some a =>
    refine withDefault_eq index none h ?_
    rw [Decoder.optional_of_ne_null (solid a rfl), back a rfl]
    rfl

/-- A text that is written only if there is one. -/
lemma optional_text {x : Option String} (h : Fields.get? k f = x.map .string) :
    (fields f).optional index k .text = .value x :=
  optional_eq index h (fun _ _ => rfl) (fun _ _ => by simp)

/-- A field of any value, of which null counts as absent. -/
lemma optional_any {x : Option Value} (h : Fields.get? k f = x) :
    (fields f).optional index k .any = .value (x.filter fun v => !v.isNull) := by
  cases x with
  | none => exact withDefault_missing index none h
  | some v =>
    refine withDefault_eq index none h ?_
    cases v <;> rfl

lemma required_text {s : String} (h : Fields.get? k f = some (.string s)) :
    (fields f).required index k .text = .value s :=
  required_eq index h rfl

lemma withDefault_eq_value_iff (default : α) (h : Fields.get? k f = some v) :
    (fields f).withDefault index k d default = .value a ↔ d v = .ok a := by
  cases hd : d v with
  | ok b => simp [withDefault_eq index default h hd]
  | error e =>
    obtain ⟨place, fault⟩ := withDefault_fault index default h hd
    simp [fault]

/-- What a field comes to that is written only if there is a value. -/
lemma optional_eq_value {enc : α → Value} {x y : Option α} (h : Fields.get? k f = x.map enc)
    (solid : ∀ a ∈ x, enc a ≠ .null) (hy : (fields f).optional index k d = .value y) :
    (x = none ∧ y = none) ∨ ∃ a b, x = some a ∧ y = some b ∧ d (enc a) = .ok b := by
  cases x with
  | none =>
    have missing : (fields f).optional index k d = .value none := withDefault_missing index none h
    exact Or.inl ⟨rfl, (Outcome.value.inj (hy.symm.trans missing))⟩
  | some a =>
    have found := (withDefault_eq_value_iff index none h).1 hy
    rw [Decoder.optional_of_ne_null (solid a rfl)] at found
    cases hd : d (enc a) with
    | ok b =>
      rw [hd] at found
      exact Or.inr ⟨a, b, rfl, (Except.ok.inj found).symm, hd⟩
    | error e =>
      rw [hd] at found
      cases found

lemma withDefault_bool {b : Bool} (default : Bool) (h : Fields.get? k f = some (.bool b)) :
    (fields f).withDefault index k .bool default = .value b :=
  withDefault_eq index default h rfl

end Source

/-! ## Values that decode -/

namespace Outcome

variable {α β : Type}

@[simp] lemma map_value (g : α → β) (a : α) : g <$> value a = value (g a) := rfl

@[simp] lemma seq_value (g : α → β) (a : α) : value g <*> value a = value (g a) := rfl

@[simp] lemma toExcept_value (a : α) : (value a).toExcept = .ok a := rfl

lemma toExcept_eq_ok {x : Outcome α} {a : α} : x.toExcept = .ok a ↔ x = value a := by
  cases x <;> simp [toExcept]

lemma seq_eq_value {g : Outcome (α → β)} {x : Outcome α} {b : β} :
    g <*> x = value b ↔ ∃ h a, g = value h ∧ x = value a ∧ h a = b := by
  cases g with
  | value h =>
    cases x with
    | value a => simp
    | fault p e => exact iff_of_false nofun (by simp)
  | fault p e =>
    refine iff_of_false ?_ (by simp)
    cases x with
    | value a => exact nofun
    | fault q e' =>
      show (if q < p then fault q e' else fault p e : Outcome β) ≠ _
      split_ifs <;> exact nofun

end Outcome

namespace Decoder

variable {α β : Type} {d : Decoder α} {enc : β → Value}

/-- A list of values that decode. -/
lemma list_map {g : β → α} {l : List β} (back : ∀ b ∈ l, d (enc b) = .ok (g b)) :
    list d (.array (l.map enc)) = .ok (l.map g) := by
  show (l.map enc).mapM d = .ok (l.map g)
  induction l with
  | nil => rfl
  | cons b l ih =>
    rw [List.map_cons, List.mapM_cons, back b List.mem_cons_self,
      ih fun c hc => back c (List.mem_cons_of_mem b hc)]
    rfl

/-- Whatever a list is decoded to, if this is known of each value. -/
lemma eq_of_list_map {enc : α → Value} {l m : List α} (only : ∀ a b, d (enc a) = .ok b → b = a)
    (h : list d (.array (l.map enc)) = .ok m) : m = l := by
  replace h : (l.map enc).mapM d = .ok m := h
  induction l generalizing m with
  | nil => exact (Except.ok.inj h).symm
  | cons a l ih =>
    rw [List.map_cons, List.mapM_cons] at h
    cases ha : d (enc a) with
    | error e =>
      rw [ha] at h
      cases h
    | ok b =>
      rw [ha] at h
      cases hl : (l.map enc).mapM d with
      | error e =>
        rw [hl] at h
        cases h
      | ok r =>
        rw [hl] at h
        obtain rfl := Except.ok.inj h
        rw [only a b ha, ih hl]

lemma texts_map (l : List String) : list text (.array (l.map .string)) = .ok l := by
  have texts : list text (.array (l.map .string)) = .ok (l.map id) := list_map fun _ _ => rfl
  rwa [List.map_id] at texts

lemma entries_map {g : β → α} {l : List (String × β)} (back : ∀ p ∈ l, d (enc p.2) = .ok (g p.2)) :
    entries d (.object (l.map fun p => (p.1, enc p.2))) = .ok (l.map fun p => (p.1, g p.2)) := by
  show (l.map fun p => (p.1, enc p.2)).mapM (fun p => (d p.2).map fun a => (p.1, a)) = _
  induction l with
  | nil => rfl
  | cons p l ih =>
    rw [List.map_cons, List.mapM_cons, back p List.mem_cons_self,
      ih fun q hq => back q (List.mem_cons_of_mem p hq)]
    rfl

end Decoder

end ApiCanon.Json
