import ApiCanon.Proofs.Json.Reading
import ApiCanon.Yaml.Document

/-!
# Values of YAML documents

No object in the value of a document has two fields of one name (`distinct_of_read`): the entries
of a mapping are put one after another, whatever aliases stand for them.
-/

namespace ApiCanon.Yaml

open Json (Value Fields)

/-! ## Evaluations -/

/-- Whatever an evaluation succeeds with is as `Q` says, however many aliases have been followed. -/
def Evaluates {α : Type} (Q : α → Prop) (m : Evaluation α) : Prop :=
  ∀ n, Ensures (fun x => Q x.1) (m n)

namespace Evaluates

variable {α β : Type} {Q : α → Prop} {R : β → Prop}

lemma pure {x : α} (h : Q x) : Evaluates Q (Pure.pure x) := fun _ => .ok h

lemma throw (e : ReadError) : Evaluates Q (MonadExcept.throw e) := fun _ => .error e

lemma bind {m : Evaluation α} {f : α → Evaluation β} (h : Evaluates Q m)
    (hf : ∀ x, Q x → Evaluates R (f x)) : Evaluates R (m >>= f) :=
  fun n => (h n).bind fun x hx => hf x.1 hx x.2

lemma anything (m : Evaluation α) : Evaluates (fun _ => True) m := fun _ _ _ => trivial

lemma mapM {f : α → Evaluation β} (hf : ∀ x, Evaluates R (f x)) (l : List α) :
    Evaluates (fun r => ∀ y ∈ r, R y) (l.mapM f) := by
  induction l with
  | nil =>
    rw [List.mapM_nil]
    exact .pure nofun
  | cons x l ih =>
    rw [List.mapM_cons]
    refine (hf x).bind fun y hy => ih.bind fun r hr => .pure fun z hz => ?_
    exact (List.mem_cons.1 hz).elim (fun e => e ▸ hy) (hr z)

lemma foldlM {f : β → α → Evaluation β} (hf : ∀ b x, R b → Evaluates R (f b x)) (l : List α)
    {b : β} (hb : R b) : Evaluates R (l.foldlM f b) := by
  induction l generalizing b with
  | nil =>
    rw [List.foldlM_nil]
    exact .pure hb
  | cons x l ih =>
    rw [List.foldlM_cons]
    exact (hf b x hb).bind fun c hc => ih hc

end Evaluates

/-! ## Scalars -/

lemma floatValue?_distinct {s : String} {v : Value} (h : floatValue? s = some v) : v.Distinct := by
  unfold floatValue? at h
  dsimp only at h
  split at h
  · cases h
  · split_ifs at h
    · exact Option.some.inj h ▸ .null
    · exact Option.some.inj h ▸ .null
    · obtain ⟨x, -, rfl⟩ := Option.map_eq_some_iff.1 h
      exact .number _

lemma intValue?_distinct {s : String} {r : Except Mismatch Value} (h : intValue? s = some r) :
    Ensures Value.Distinct r := by
  obtain ⟨i, -, h⟩ := Option.bind_eq_some_iff.1 h
  unfold wholeValue? at h
  split_ifs at h
  · exact Option.some.inj h ▸ .ok (.number _)
  · exact Option.some.inj h ▸ .error _

lemma plainValue_distinct (s : String) : Ensures Value.Distinct (plainValue s) := by
  unfold plainValue
  by_cases empty : (s.isEmpty || isNullText s) = true
  · rw [if_pos empty]
    exact .ok .null
  · rw [if_neg empty]
    cases truth? s with
    | some b => exact .ok (.bool b)
    | none =>
      cases hi : intValue? s with
      | some r => exact intValue?_distinct hi
      | none =>
        dsimp only
        cases hf : if hasNeedlessZeros s.toList then none else floatValue? s with
        | none => exact .ok (.string s)
        | some v =>
          split_ifs at hf
          exact .ok (floatValue?_distinct hf)

lemma scalarValue_distinct (tag? : Option String) (plain : Bool) (s : String) :
    Ensures Value.Distinct (scalarValue tag? plain s) := by
  unfold scalarValue
  split
  · unfold taggedValue
    split
    · cases truth? s with
      | some b => exact .ok (.bool b)
      | none => exact .error _
    · cases hi : intValue? s with
      | some r => exact intValue?_distinct hi
      | none => exact .error _
    · cases hf : floatValue? s with
      | some v => exact .ok (floatValue?_distinct hf)
      | none => exact .error _
    · split_ifs
      · exact .ok .null
      · exact .error _
    · exact .ok (.string s)
  · split_ifs
    · exact plainValue_distinct s
    · exact .ok (.string s)

/-! ## Nodes -/

lemma placed_distinct (path : Path) (m : Mark) {r : Except Mismatch Value}
    (h : Ensures Value.Distinct r) : Evaluates Value.Distinct (placed path m r) := by
  cases r with
  | ok v => exact .pure (h v rfl)
  | error e => exact .throw _

/-- The value of a node, given that of the nodes inside of it. -/
lemma evaluate_distinct (a : Aliases) {inner? : Option (Path → Node → Evaluation Value)}
    (inner : ∀ f ∈ inner?, ∀ path x, Evaluates Value.Distinct (f path x)) (path : Path)
    (x : Node) : Evaluates Value.Distinct (evaluate a inner? path x) := by
  refine (Evaluates.anything _).bind fun y _ => ?_
  cases y with
  | scalar m tag? plain text =>
    dsimp only
    split_ifs
    · exact .throw _
    · exact placed_distinct path m (scalarValue_distinct tag? plain text)
  | sequence m tag? items =>
    dsimp only
    split_ifs
    · exact .throw _
    · cases inner? with
      | none => exact .throw _
      | some f =>
        have values := Evaluates.mapM (fun p : Node × Nat => inner f rfl (.item path p.2) p.1)
          items.zipIdx
        exact values.bind fun r hr => .pure (.array hr)
  | mapping m tag? entries =>
    dsimp only
    split_ifs
    · exact .throw _
    · cases inner? with
      | none => exact .throw _
      | some f =>
        refine (Evaluates.foldlM (R := fun g : Fields => (Value.object g).Distinct)
          (fun g p hg => ?_) entries.zipIdx Value.Distinct.noFields).bind fun g hg => .pure hg
        refine (Evaluates.anything _).bind fun key _ => ?_
        exact (inner f rfl key.2 p.1.2).bind fun v hv => .pure (hg.put hv)
  | broken e => exact .throw e
  | _ => exact .pure .null

lemma valueOf_distinct (a : Aliases) (depth : Nat) (path : Path) (x : Node) :
    Evaluates Value.Distinct (valueOf a depth path x) := by
  induction depth generalizing path x with
  | zero =>
    have none : ∀ f ∈ (none : Option (Path → Node → Evaluation Value)), ∀ path x,
        Evaluates Value.Distinct (f path x) := nofun
    exact evaluate_distinct a none path x
  | succ depth ih =>
    refine evaluate_distinct a (fun f hf path x => ?_) path x
    exact Option.some.inj hf ▸ ih path x

lemma Document.value_distinct (d : Document) : Ensures Value.Distinct d.value := by
  unfold Document.value
  split
  · exact .ok .null
  · next root _ =>
    refine (valueOf_distinct _ depthLimit .root root 0).bind fun x hx => ?_
    dsimp only
    split
    · exact .error _
    · split_ifs
      · exact .error _
      · exact .ok hx

/-- No object in a document that is read has two fields of one name. -/
theorem distinct_of_read {s : List Char} {v : Value} (h : Yaml.read s = .ok v) : v.Distinct := by
  unfold Yaml.read at h
  split at h
  · cases h
  · exact Document.value_distinct _ v h

end ApiCanon.Yaml
