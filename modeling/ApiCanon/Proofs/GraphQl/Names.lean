import ApiCanon.Proofs.GraphQl.Definitions
import ApiCanon.Proofs.GraphQl.Tokens

/-!
# Names of fields

The name of a field is one of the tokens that spell out its definition, on the line that is kept
with the field (`token_mem_of_many`), which goes by the rules of the grammar.  Such a name is never
blank (`visible_of_document`): by the reader of tokens it begins with a letter or an underscore.
-/

namespace ApiCanon.GraphQl

open Phrase Grammar

/-! ## Tokens in phrases -/

namespace Phrase

variable {α β : Type} {g h : Phrase α} {f : α → Phrase β} {of : α → List Token}

/-- Certain tokens that a value knows of are among those that spell it out. -/
def Mentions (g : Phrase α) (of : α → List Token) : Prop := ∀ v l, g v l → of v ⊆ l

lemma Mentions.pure {v : α} (none : of v = []) : (pure v : Phrase α).Mentions of := by
  rintro _ _ ⟨rfl, rfl⟩
  rw [none]
  exact List.Subset.refl []

/-- Tokens that come in the rest of a phrase. -/
lemma Mentions.after {of : β → List Token} (next : ∀ a, (f a).Mentions of) :
    (g >>= f).Mentions of := by
  rintro v _ ⟨a, l, m, -, hm, rfl⟩
  exact List.subset_append_of_subset_right l (next a v m hm)

/-- Tokens that the value put together in the end has from a part of the phrase. -/
lemma Mentions.last {e : α → β} {of' : β → List Token} (part : g.Mentions of)
    (kept : ∀ a, of' (e a) ⊆ of a) :
    (g >>= fun a => Pure.pure (e a)).Mentions of' := by
  rintro _ _ ⟨a, l, _, hl, ⟨rfl, rfl⟩, rfl⟩
  rw [List.append_nil]
  exact List.Subset.trans (kept a) (part a l hl)

lemma Mentions.optional {absent : α} (present : g.Mentions of) (none : of absent = []) :
    (optional absent g).Mentions of := by
  rintro v l (hl | hl)
  · exact present v l hl
  · exact Mentions.pure none v l hl

lemma Mentions.many (each : g.Mentions of) : (many g).Mentions fun as => as.flatMap of := by
  intro as l derived
  induction derived with
  | nil => exact List.Subset.refl []
  | @cons a as l m first others ih =>
    exact List.append_subset.2 ⟨List.subset_append_of_subset_left m (each a l first),
      List.subset_append_of_subset_right l ih⟩

lemma Mentions.keyed {table : List (String × (Nat → Phrase α))}
    (each : ∀ p ∈ table, ∀ line, (p.2 line).Mentions of) : (keyed table).Mentions of := by
  rintro v l ⟨p, hp, derived⟩
  exact Mentions.after (each p hp) v l derived

lemma Mentions.enclosed {opening closing : Char} (each : g.Mentions of) :
    (enclosed opening closing g).Mentions fun as => as.flatMap of := by
  rintro as _ ⟨_, l, _, -, ⟨_, m, _, hm, ⟨_, _, _, -, ⟨rfl, rfl⟩, rfl⟩, rfl⟩, rfl⟩
  refine List.subset_append_of_subset_right l (List.subset_append_of_subset_left _ ?_)
  exact Mentions.many each as m hm

end Phrase

/-! ## Names of fields -/

/-- The fields of a definition that has any. -/
def Definition.fields : Definition → List Field
  | .object _ _ _ fields _ _ => fields
  | _ => []

/-- The name of a field where it is defined. -/
def Field.token (f : Field) : Token := ⟨.name f.name, f.line⟩

/-- The names of the fields of a definition. -/
def fieldTokens (d? : Option Definition) : List Token :=
  d?.toList.flatMap fun d => d.fields.map Field.token

lemma mentions_field (kind : ObjectKind) : (field kind).Mentions fun f => [f.token] := by
  rintro f _ ⟨d, l, _, -, ⟨⟨n, line⟩, _, m, rfl, ⟨as, _, _, -, ⟨⟨t, ds⟩, _, _, -, ⟨rfl, rfl⟩, rfl⟩,
    rfl⟩, rfl⟩, rfl⟩
  exact List.subset_append_of_subset_right l (List.cons_subset_cons _ (List.nil_subset _))

lemma mentions_object (kind : ObjectKind) (d : Option String) (extension : Bool) (line : Nat) :
    (object kind d extension line).Mentions fieldTokens := by
  refine .after fun n => .after fun _ => .after fun _ => ?_
  refine .last (.optional (.enclosed (mentions_field kind)) rfl) fun fs => ?_
  simp [fieldTokens, Definition.fields, List.map_eq_flatMap]

lemma mentions_described (d : Option String) (e : Option Nat) :
    (described d e).Mentions fieldTokens := by
  refine .keyed ?_
  simp only [List.forall_mem_cons]
  refine ⟨fun _ => ?_, fun _ => mentions_object _ _ _ _, fun _ => mentions_object _ _ _ _,
    fun _ => mentions_object _ _ _ _, fun _ => ?_, fun _ => ?_, fun _ => ?_, fun _ => ?_, nofun⟩
  · exact .after fun _ => .after fun _ => .pure rfl
  · exact .after fun _ => .after fun _ => .after fun _ => .pure rfl
  · exact .after fun _ => .after fun _ => .after fun _ => .pure rfl
  · exact .after fun _ => .after fun _ => .pure rfl
  · exact .after fun _ => .after fun _ => .after fun _ => .after fun _ => .after fun _ =>
      .after fun _ => .pure rfl

lemma mentions_definition : definition.Mentions fieldTokens :=
  .after fun d => .after fun e => mentions_described d e

/-- The name of each field of a document is one of its tokens. -/
lemma token_mem_of_many {os : List (Option Definition)} {ts : List Token}
    (derived : Many definition os ts) {d : Definition} (hd : some d ∈ os) {f : Field}
    (hf : f ∈ d.fields) : f.token ∈ ts := by
  refine Mentions.many mentions_definition os ts derived (List.mem_flatMap.2 ⟨some d, hd, ?_⟩)
  simpa [fieldTokens] using ⟨f, hf, rfl⟩

/-! ## Name tokens -/

lemma not_isBlank_of_isNameStart {c : Char} (h : isNameStart c = true) :
    Text.isBlank c = false := by
  have letter : (65 ≤ c.toNat ∧ c.toNat ≤ 90) ∨ (97 ≤ c.toNat ∧ c.toNat ≤ 122) ∨ c.toNat = 95 := by
    rcases Bool.or_eq_true_iff.1 h with letter | underscore
    · rcases Bool.or_eq_true_iff.1 letter with upper | lower
      · have range : 'A'.val ≤ c.val ∧ c.val ≤ 'Z'.val := of_decide_eq_true upper
        exact Or.inl range
      · have range := Bool.and_eq_true_iff.1 lower
        exact Or.inr (Or.inl ⟨of_decide_eq_true range.1, of_decide_eq_true range.2⟩)
    · obtain rfl : c = '_' := by simpa using underscore
      decide
  simp only [Text.isBlank, Bool.or_eq_false_iff, Bool.and_eq_false_iff, decide_eq_false_iff_not,
    beq_eq_false_iff_ne]
  omega

/-- A token that is not a blank name. -/
def Token.Visible (t : Token) : Prop := ∀ n, t.lexeme = .name n → Text.isBlankText n = false

lemma TokenStep.visible {line line' : Nat} {s rest : List Char} {t : Token}
    (step : TokenStep line s (some t) rest line') : t.Visible := by
  intro n same
  cases step with
  | name _ _ start =>
    obtain rfl := Lexeme.name.inj same
    rw [Text.isBlankText, String.toList_ofList, Text.allBlank, List.all_cons,
      not_isBlank_of_isNameStart start, Bool.false_and]
  | text | spread | number | punct => cases same

/-- No name among the tokens of a text is blank. -/
lemma visible_of_tokensFrom {s : List Char} {line : Nat} {ts : List Token}
    (h : tokensFrom line s = .ok ts) : ∀ t ∈ ts, t.Visible := by
  refine tokensFrom_induction (P := fun _ _ ts => ∀ t ∈ ts, t.Visible) (fun _ => nofun)
    (fun step ih => List.forall_mem_append.2 ⟨fun t taken => ?_, ih⟩) h
  obtain rfl := Option.mem_toList.1 taken
  exact step.visible

/-- No field of a document has a blank name. -/
theorem visible_of_document {text : List Char} {ds : List Definition}
    (h : document text = .ok ds) {d : Definition} (hd : d ∈ ds) {f : Field} (hf : f ∈ d.fields) :
    Text.isBlankText f.name = false := by
  obtain ⟨ts, os, spelled, derived, rfl⟩ := document_eq_ok_iff.1 h
  have named := token_mem_of_many derived (List.reduceOption_mem_iff.1 hd) hf
  exact visible_of_tokensFrom spelled _ named _ rfl

end ApiCanon.GraphQl
