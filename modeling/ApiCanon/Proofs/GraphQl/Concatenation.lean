import ApiCanon.Proofs.Collection.KeyedList
import ApiCanon.Proofs.GraphQl.Definitions
import ApiCanon.Proofs.GraphQl.Tokens

/-!
# Documents behind one another

Two documents, the second one on a line of its own, are one document, which defines what the first
defines and then what the second does (`document_append`).

The tokens of both are found one behind the other (`tokensFrom_append`), and the grammar spells out
any number of definitions.  That the reader then finds each of them, and takes nothing of the second
document for more of the first, is what its bars are for (`complete_definitionsFrom`).

The definitions of the second document are what they were but for their lines: the grammar spells
out the same further down (`Phrase.Lowers`), where lines go with their tokens.
-/

namespace ApiCanon.GraphQl

open Phrase Grammar

/-! ## Further down -/

/-- The field further down in a document. -/
def Field.down (n : Nat) (f : Field) : Field := { f with line := f.line + n }

/-- The definition further down in a document. -/
def Definition.down (n : Nat) : Definition → Definition
  | .object kind name description fields extension line =>
    .object kind name description (fields.map (Field.down n)) extension (line + n)
  | d => d

namespace Phrase

variable {α α' β β' : Type} {n : Nat}

/-- What a phrase spells out, the other one spells out further down as something else. -/
def Lowers (n : Nat) (φ : α → α') (g : Phrase α) (g' : Phrase α') : Prop :=
  ∀ v l, g v l → g' (φ v) (l.map (Token.down n))

/-- A phrase that spells out the same on all lines. -/
def Steady (g : Phrase α) : Prop := ∀ n, g.Lowers n id g

namespace Lowers

variable {φ : α → α'} {ψ : β → β'} {g h : Phrase α} {g' h' : Phrase α'} {f : α → Phrase β}
  {f' : α' → Phrase β'}

lemma pure {v : α} {w : α'} (made : φ v = w) :
    (Pure.pure v : Phrase α).Lowers n φ (Pure.pure w) := by
  rintro _ _ ⟨rfl, rfl⟩
  exact ⟨made, rfl⟩

lemma bind (first : g.Lowers n φ g') (next : ∀ a, (f a).Lowers n ψ (f' (φ a))) :
    (g >>= f).Lowers n ψ (g' >>= f') := by
  rintro v _ ⟨a, l, m, hl, hm, rfl⟩
  exact ⟨φ a, _, _, first a l hl, next a v m hm, List.map_append⟩

lemma orElse (first : g.Lowers n φ g') (second : h.Lowers n φ h') :
    (g <|> h).Lowers n φ (g' <|> h') := by
  rintro v l (hl | hl)
  · exact .inl (first v l hl)
  · exact .inr (second v l hl)

lemma optional {absent : α} {absent' : α'} (present : g.Lowers n φ g') (made : φ absent = absent') :
    (optional absent g).Lowers n φ (Phrase.optional absent' g') :=
  present.orElse (.pure made)

lemma many (each : g.Lowers n φ g') : (many g).Lowers n (List.map φ) (Phrase.many g') := by
  intro as l derived
  induction derived with
  | nil => exact .nil
  | cons first others ih =>
    rw [List.map_append]
    exact .cons (each _ _ first) ih

lemma placedName : placedName.Lowers n (fun v => (v.1, v.2 + n)) placedName := by
  rintro v _ rfl
  rfl

lemma placedWord (w : String) : (placedWord w).Lowers n (· + n) (Phrase.placedWord w) := by
  rintro line _ rfl
  rfl

/-- Alternatives are lowered one by one. -/
lemma keyed {table : List (String × (Nat → Phrase α))} {table' : List (String × (Nat → Phrase α'))}
    (each : List.Forall₂ (fun p p' => p.1 = p'.1 ∧
      ∀ line, (p.2 line).Lowers n φ (p'.2 (line + n))) table table') :
    (keyed table).Lowers n φ (Phrase.keyed table') := by
  rintro v l ⟨p, hp, derived⟩
  obtain ⟨p', hp', same, lowers⟩ := exists_of_mem_left each hp
  refine ⟨p', hp', ?_⟩
  rw [← same]
  exact (placedWord p.1).bind lowers v l derived

end Lowers

namespace Steady

variable {g h : Phrase α} {f : α → Phrase β}

lemma pure (v : α) : (Pure.pure v : Phrase α).Steady := fun _ => .pure rfl

lemma bind (first : g.Steady) (next : ∀ a, (f a).Steady) : (g >>= f).Steady :=
  fun n => (first n).bind fun a => next a n

lemma orElse (first : g.Steady) (second : h.Steady) : (g <|> h).Steady :=
  fun n => (first n).orElse (second n)

lemma optional (absent : α) (present : g.Steady) : (optional absent g).Steady :=
  fun n => (present n).optional rfl

lemma many (each : g.Steady) : (many g).Steady := by
  intro n as l derived
  have lowered := (each n).many as l derived
  rwa [List.map_id] at lowered

lemma token (x : Lexeme) : (token x).Steady := by
  rintro n _ _ ⟨line, rfl⟩
  exact ⟨line + n, rfl⟩

lemma name : name.Steady := by
  rintro n _ _ ⟨line, rfl⟩
  exact ⟨line + n, rfl⟩

lemma text : text.Steady := by
  rintro n _ _ ⟨line, rfl⟩
  exact ⟨line + n, rfl⟩

lemma number : number.Steady := by
  rintro n _ _ ⟨s, line, rfl⟩
  exact ⟨s, line + n, rfl⟩

/-- What stands for nothing but for what comes of it. -/
lemma last {e : α → β} (steady : g.Steady) : (g >>= fun a => Pure.pure (e a)).Steady :=
  steady.bind fun a => pure (e a)

end Steady

end Phrase

/-! ## The rules of the grammar -/

namespace Grammar

lemma steady_description : description.Steady := .optional none (.last .text)

lemma Content.down {opening closing : Char} {l : List Token} (content : Content opening closing l)
    (n : Nat) : Content opening closing (l.map (Token.down n)) := by
  induction content with
  | nil => exact .nil
  | other opens closes _ ih => exact .other opens closes ih
  | nested line line' _ _ inner rest =>
    rw [List.map_cons, List.map_append]
    exact .nested (line + n) (line' + n) inner rest

lemma steady_balanced (opening closing : Char) : (balanced opening closing).Steady :=
  (Steady.token _).bind fun _ =>
    Steady.bind (fun n _ _ content => Content.down content n) fun _ => .token _

lemma steady_value : value.Steady :=
  (steady_balanced _ _).orElse <| (steady_balanced _ _).orElse <|
    ((Steady.token _).bind fun _ => .last .name).orElse <|
    (Steady.last .name).orElse <| (Steady.last .text).orElse .number

lemma steady_defaultValue : defaultValue.Steady :=
  .optional () ((Steady.token _).bind fun _ => steady_value)

lemma steady_directives : Grammar.directives.Steady :=
  .many <| (Steady.token _).bind fun _ => Steady.name.bind fun _ =>
    (Steady.optional () (steady_balanced _ _)).bind fun _ => .pure _

lemma steady_mark (t : TypeExpr) : (mark t).Steady := .optional t (.last (.token _))

lemma Unmarked.down {t : TypeExpr} {l : List Token} (unmarked : Unmarked t l) (n : Nat) :
    Unmarked t (l.map (Token.down n)) := by
  induction unmarked with
  | named name line => exact .named name (line + n)
  | list line line' _ marked item =>
    rw [List.map_cons, List.map_append, List.map_append]
    exact .list (line + n) (line' + n) item (steady_mark _ n _ _ marked)

lemma steady_typed : typed.Steady :=
  (Steady.token _).bind fun _ =>
    Steady.bind (Steady.bind (fun n _ _ unmarked => Unmarked.down unmarked n) steady_mark) fun _ =>
      steady_defaultValue.bind fun _ => .last steady_directives

lemma steady_argument : Grammar.argument.Steady :=
  steady_description.bind fun _ => Steady.name.bind fun _ => .last steady_typed

lemma lowers_enclosed {α α' : Type} {n : Nat} {φ : α → α'} {g : Phrase α} {g' : Phrase α'}
    {opening closing : Char} (each : g.Lowers n φ g') :
    (enclosed opening closing g).Lowers n (List.map φ) (enclosed opening closing g') :=
  (Steady.token _ n).bind fun _ => each.many.bind fun _ => (Steady.token _ n).bind fun _ =>
    .pure rfl

lemma steady_enclosed {α : Type} {g : Phrase α} {opening closing : Char} (each : g.Steady) :
    (enclosed opening closing g).Steady :=
  (Steady.token _).bind fun _ => (Steady.many each).bind fun _ => .last (.token _)

lemma steady_arguments : Grammar.arguments.Steady := .optional [] (steady_enclosed steady_argument)

lemma steady_fieldArguments (kind : ObjectKind) : (fieldArguments kind).Steady := by
  unfold fieldArguments
  split
  · exact .pure []
  · exact steady_arguments

lemma lowers_field (kind : ObjectKind) (n : Nat) :
    (field kind).Lowers n (Field.down n) (field kind) :=
  (steady_description n).bind fun _ => Lowers.placedName.bind fun _ =>
    (steady_fieldArguments kind n).bind fun _ => (steady_typed n).bind fun _ => .pure rfl

lemma steady_separated (separator : Char) : (separated separator).Steady :=
  (Steady.optional () (.token _)).bind fun _ => Steady.name.bind fun _ =>
    .last (.many ((Steady.token _).bind fun _ => .name))

section Definitions

variable (n : Nat) (d : Option String)

lemma lowers_schemaBlock :
    schemaBlock.Lowers n (Option.map (Definition.down n)) schemaBlock :=
  (steady_directives n).bind fun _ => Lowers.bind (φ := id)
    (steady_enclosed (Steady.name.bind fun _ => (Steady.token _).bind fun _ => .last .name) n)
    fun _ => .pure rfl

lemma lowers_object (kind : ObjectKind) (extension : Bool) (line : Nat) :
    (object kind d extension line).Lowers n (Option.map (Definition.down n))
      (object kind d extension (line + n)) :=
  (Steady.name n).bind fun _ =>
    (Steady.optional [] ((Steady.token _).bind fun _ => steady_separated '&') n).bind fun _ =>
      (steady_directives n).bind fun _ =>
        ((lowers_enclosed (lowers_field kind n)).optional rfl).bind fun _ => .pure rfl

lemma lowers_enum : (enum d).Lowers n (Option.map (Definition.down n)) (enum d) :=
  (Steady.name n).bind fun _ => (steady_directives n).bind fun _ => Lowers.bind (φ := id)
    (Steady.optional [] (steady_enclosed <|
      steady_description.bind fun _ => Steady.name.bind fun _ => .last steady_directives) n)
    fun _ => .pure rfl

lemma lowers_union : (union d).Lowers n (Option.map (Definition.down n)) (union d) :=
  (Steady.name n).bind fun _ => (steady_directives n).bind fun _ => Lowers.bind (φ := id)
    (Steady.optional [] ((Steady.token _).bind fun _ => steady_separated '|') n) fun _ => .pure rfl

lemma lowers_scalar : scalar.Lowers n (Option.map (Definition.down n)) scalar :=
  (Steady.name n).bind fun _ => (steady_directives n).bind fun _ => .pure rfl

lemma lowers_directiveDefinition :
    directiveDefinition.Lowers n (Option.map (Definition.down n)) directiveDefinition :=
  (Steady.token _ n).bind fun _ => (Steady.name n).bind fun _ =>
    (steady_arguments n).bind fun _ => (Steady.optional () (.token _) n).bind fun _ =>
      (Steady.token _ n).bind fun _ => (steady_separated '|' n).bind fun _ => .pure rfl

lemma lowers_described (e : Option Nat) :
    (described d e).Lowers n (Option.map (Definition.down n)) (described d (e.map (· + n))) := by
  have line (l : Nat) : (e.map (· + n)).getD (l + n) = e.getD l + n := by cases e <;> rfl
  refine .keyed ?_
  simp only [List.forall₂_cons, List.forall₂_nil_right_iff, true_and, and_true, Option.isSome_map,
    line]
  exact ⟨fun _ => lowers_schemaBlock n, fun _ => lowers_object n d _ _ _,
    fun _ => lowers_object n d _ _ _, fun _ => lowers_object n d _ _ _, fun _ => lowers_enum n d,
    fun _ => lowers_union n d, fun _ => lowers_scalar n, fun _ => lowers_directiveDefinition n⟩

end Definitions

lemma lowers_extended (n : Nat) : extended.Lowers n (Option.map (· + n)) extended :=
  Lowers.optional ((Lowers.placedWord "extend").bind fun _ => .pure rfl) rfl

/-- Further down the grammar spells out the same definitions, but for their lines. -/
lemma lowers_definition (n : Nat) :
    definition.Lowers n (Option.map (Definition.down n)) definition :=
  (steady_description n).bind fun d => (lowers_extended n).bind fun e => lowers_described n d e

end Grammar

/-! ## Documents -/

lemma Phrase.Many.append {α : Type} {g : Phrase α} {as bs : List α} {l m : List Token}
    (first : Many g as l) (second : Many g bs m) : Many g (as ++ bs) (l ++ m) := by
  induction first with
  | nil => exact second
  | cons item _ ih =>
    rw [List.append_assoc]
    exact .cons item ih

/-- **Documents behind one another are a document.**  If two texts are documents, so are both with a
line feed between them.  It defines what the first text defines, and then what the second does, some
lines further down. -/
theorem document_append {s t : List Char} {ds es : List Definition}
    (hs : GraphQl.document s = .ok ds) (ht : GraphQl.document t = .ok es) :
    ∃ n, GraphQl.document (s ++ '\n' :: t) = .ok (ds ++ es.map (Definition.down n)) := by
  obtain ⟨ts, os, found, derived, rfl⟩ := document_eq_ok_iff.1 hs
  obtain ⟨ts', os', found', derived', rfl⟩ := document_eq_ok_iff.1 ht
  obtain ⟨n, append⟩ := tokensFrom_append found
  refine ⟨n, document_eq_ok_iff.2 ⟨ts ++ ts'.map (Token.down n),
    os ++ os'.map (Option.map (Definition.down n)), ?_, ?_, ?_⟩⟩
  · rw [tokens, append, tokensFrom_down found']
    rfl
  · exact derived.append ((lowers_definition n).many os' ts' derived')
  · rw [List.reduceOption_append, List.reduceOption_map]

/-- A union without members, which a bar would go on with, and a comment that goes on up to the end
of its text. -/
theorem document_append_comment :
    GraphQl.document "union U @a # =".toList = .ok [.union "U" none] ∧
    GraphQl.document "\"|\" type C { d: [Int!] }".toList =
      .ok [.object .type "C" (some "|") [⟨none, "d", [], .list (.nonNull (.named "Int")), false, 1⟩]
        false 1] ∧
    ∃ n, GraphQl.document "union U @a # =\n\"|\" type C { d: [Int!] }".toList =
      .ok [.union "U" none, .object .type "C" (some "|")
        [⟨none, "d", [], .list (.nonNull (.named "Int")), false, 1 + n⟩] false (1 + n)] := by
  have first : GraphQl.document "union U @a # =".toList = .ok [.union "U" none] := by
    decide +kernel
  have second : GraphQl.document "\"|\" type C { d: [Int!] }".toList =
      .ok [.object .type "C" (some "|") [⟨none, "d", [], .list (.nonNull (.named "Int")), false, 1⟩]
        false 1] := by
    decide +kernel
  obtain ⟨n, both⟩ := document_append first second
  exact ⟨first, second, n, both⟩

end ApiCanon.GraphQl
