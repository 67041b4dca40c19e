import ApiCanon.Proofs.GraphQl.Definitions

/-!
# Where faults are found

A reader takes tokens off the front of those that it is given, whether it succeeds or fails
(`Leaves`).  So what is left where a fault is found is the end of all tokens, and the fault has the
line of one of them: of the first one left, or of the last one of all (`exists_token_of_fault`).
-/

namespace ApiCanon.GraphQl

/-- What is left of some tokens, be it behind a value or where a fault is found, is an end of
them. -/
def Leaves {α : Type} (left : α → List Token) (ts : List Token) : Read α → Prop
  | .ok a => left a <:+ ts
  | .error e => e.rest <:+ ts

/-- A reader that leaves an end of the tokens it is given. -/
def Stays {α : Type} (p : Reader α) : Prop := ∀ ts, Leaves Prod.snd ts (p ts)

/-! ## Readers put together -/

section Combinators

variable {α β : Type} {left : α → List Token} {left' : β → List Token} {ts us : List Token}
  {x : Read α} {f : α → Read β}

lemma Leaves.mono (leaves : Leaves left us x) (suffix : us <:+ ts) : Leaves left ts x := by
  cases x with
  | ok a => exact List.IsSuffix.trans leaves suffix
  | error e => exact List.IsSuffix.trans leaves suffix

lemma Leaves.cons {t : Token} (leaves : Leaves left ts x) : Leaves left (t :: ts) x :=
  leaves.mono (List.suffix_cons t ts)

lemma Leaves.bind (first : Leaves left ts x) (next : ∀ a, Leaves left' (left a) (f a)) :
    Leaves left' ts (x >>= f) := by
  cases x with
  | ok a => exact (next a).mono first
  | error e => exact first

lemma Leaves.map {g : α → β} (first : Leaves left ts x) (same : ∀ a, left' (g a) = left a) :
    Leaves left' ts (x.map g) := by
  rw [map_eq_bind]
  refine first.bind fun a => ?_
  exact (same a).symm ▸ List.suffix_refl (left a)

/-- A reader that branches, in front of another one. -/
lemma Leaves.bindIte {c : Bool} {y : Read α} (first : Leaves left ts (if c then x else y))
    (next : ∀ a, Leaves left' (left a) (f a)) :
    Leaves left' ts (if c then x >>= f else y >>= f) := by
  rw [← apply_ite (· >>= f)]
  exact first.bind next

/-- A reader of what stands behind a given token. -/
lemma Leaves.behind {p : Reader α} (stays : Stays p) (ts : List Token) :
    Leaves Prod.snd ts (p ts.tail) :=
  (stays ts.tail).mono (List.tail_suffix ts)

/-- What is left if a given token is passed over where it comes next. -/
lemma passed_suffix (next : List Token → Bool) (ts : List Token) :
    (if next ts then ts.tail else ts) <:+ ts := by
  split_ifs
  · exact List.tail_suffix ts
  · exact List.suffix_refl ts

lemma Stays.pure (a : α) : Stays fun ts => .ok (a, ts) := List.suffix_refl

/-- A reader of what stands behind a given token, if this one is there. -/
lemma Stays.optional {p : Reader α} (stays : Stays p) (next : List Token → Bool) (absent : α) :
    Stays fun ts => if next ts then p ts.tail else .ok (absent, ts) := by
  intro ts
  dsimp only
  split_ifs
  · exact .behind stays ts
  · exact List.suffix_refl ts

/-- A reader that goes on in rounds, of which it is known where it fails. -/
lemma Rounds.stays {closing : Char} {item : Reader α} {loop : Nat → Reader (List α)}
    (rounds : Rounds closing item loop) (each : Stays item)
    (out : ∀ ts, Leaves Prod.snd ts (loop 0 ts))
    (unclosed : ∀ fuel, Leaves Prod.snd [] (loop (fuel + 1) [])) (fuel : Nat) :
    Stays (loop fuel) := by
  induction fuel with
  | zero => exact out
  | succ fuel ih =>
    intro ts
    match ts with
    | [] => exact unclosed fuel
    | t :: ts =>
      by_cases closes : t.lexeme = .punct closing
      · obtain ⟨_, line⟩ := t
        obtain rfl : _ = Lexeme.punct closing := closes
        rw [rounds.close]
        exact List.suffix_cons _ ts
      · rw [rounds.next fuel t ts closes]
        exact (each _).bind fun r => (ih r.2).bind fun s => List.suffix_refl s.2

/-- Rounds between brackets, if the opening one is there. -/
lemma Stays.enclosed {loop : Nat → Reader α} (stays : ∀ fuel, Stays (loop fuel)) (opening : Char)
    (absent : α) :
    Stays fun ts => if atPunct opening ts then loop (ts.length + 1) ts.tail
      else .ok (absent, ts) := by
  intro ts
  dsimp only
  split_ifs
  · exact .behind (stays _) ts
  · exact List.suffix_refl ts

end Combinators

/-! ## Tokens, values and directives -/

lemma leaves_expectPunct (c : Char) (ts : List Token) : Leaves id ts (expectPunct c ts) := by
  unfold expectPunct
  split_ifs
  · exact List.tail_suffix ts
  · exact List.suffix_refl ts

lemma stays_expectName : Stays expectName := by
  intro ts
  unfold expectName
  split
  · exact List.suffix_cons _ _
  · exact List.suffix_refl ts

lemma stays_placed (last : Nat) : Stays (placed last) := fun ts =>
  (stays_expectName ts).bind fun r => List.suffix_refl r.2

lemma stays_describe : Stays describe := by
  intro ts
  unfold describe GraphQl.description
  split
  · exact List.suffix_cons _ _
  · exact List.suffix_refl _

lemma stays_afterClosing (opening closing : Char) (depth : Nat) :
    Stays (afterClosing opening closing depth) := by
  intro ts
  fun_induction afterClosing opening closing depth ts with
  | case1 => exact List.suffix_refl []
  | case2 _ _ _ ih | case4 _ _ _ _ ih | case5 _ _ _ _ _ _ ih | case6 _ _ _ _ ih => exact .cons ih
  | case3 => exact List.suffix_cons _ _

lemma stays_skipValue : Stays skipValue := by
  intro ts
  unfold skipValue
  split
  · exact .cons (stays_afterClosing _ _ _ _)
  · exact .cons (stays_afterClosing _ _ _ _)
  · exact .cons (.map (stays_expectName _) fun _ => rfl)
  · exact List.suffix_cons _ _
  · exact List.suffix_cons _ _
  · exact List.suffix_cons _ _
  · exact List.suffix_refl _

lemma stays_skipDefault : Stays skipDefault := stays_skipValue.optional (atPunct '=') ()

lemma stays_directives (depth : Nat) : Stays (GraphQl.directives depth) := by
  intro ts
  fun_induction GraphQl.directives depth ts with
  | case1 | case2 => exact List.suffix_refl []
  | case3 _ _ _ _ _ _ ih => exact .cons (.cons (.cons (.map ih fun _ => rfl)))
  | case4 _ _ _ _ _ _ ih => exact .cons (.cons (.map ih fun _ => rfl))
  | case5 => exact List.suffix_cons _ _
  | case6 => exact List.suffix_refl _
  | case7 _ _ _ _ ih | case8 _ _ _ _ _ ih | case9 _ _ _ _ _ ih => exact .cons ih

/-! ## Types, arguments and fields -/

lemma stays_readMark (t : TypeExpr) : Stays (readMark t) :=
  (Stays.pure t.nonNull).optional (atPunct '!') t

lemma stays_closeLists (depth : Nat) (t : TypeExpr) : Stays (closeLists depth t) := by
  induction depth generalizing t with
  | zero =>
    intro ts
    rw [closeLists_zero]
    exact stays_readMark t ts
  | succ depth ih =>
    intro ts
    rw [closeLists_succ]
    exact (stays_readMark t ts).bind fun r => (leaves_expectPunct ']' r.2).bind (ih (.list r.1))

lemma stays_typeExpr (depth : Nat) : Stays (GraphQl.typeExpr depth) := by
  intro ts
  fun_induction GraphQl.typeExpr depth ts with
  | case1 _ _ _ ih => exact .cons ih
  | case2 => exact .cons (stays_closeLists _ _ _)
  | case3 => exact List.suffix_refl _

lemma stays_typedName : Stays typedName := fun ts =>
  (leaves_expectPunct ':' ts).bind fun ts => (stays_typeExpr 0 ts).bind fun (_, ts) =>
    (stays_skipDefault ts).bind fun (_, ts) => (stays_directives 0 ts).bind fun (_, ts) =>
      List.suffix_refl ts

lemma stays_argument : Stays GraphQl.argument := by
  rw [argument_eq]
  exact fun ts => (stays_describe ts).bind fun (_, ts) => (stays_expectName ts).bind fun (_, ts) =>
    (stays_typedName ts).bind fun (_, ts) => List.suffix_refl ts

lemma stays_arguments : Stays GraphQl.arguments :=
  .enclosed (rounds_arguments.stays stays_argument List.suffix_refl fun _ => List.suffix_refl [])
    '(' []

lemma stays_readField (kind : ObjectKind) (last : Nat) : Stays (readField kind last) := by
  have arguments : Stays (readFieldArguments kind) := by
    unfold readFieldArguments
    split_ifs
    · exact .pure []
    · exact stays_arguments
  rw [readField_eq]
  exact fun ts => (stays_describe ts).bind fun (_, ts) => (stays_placed last ts).bind fun (_, ts) =>
    (arguments ts).bind fun (_, ts) => (stays_typedName ts).bind fun (_, ts) => List.suffix_refl ts

lemma stays_readFields (kind : ObjectKind) (last : Nat) : Stays (readFields kind last) :=
  .enclosed ((rounds_fields kind last).stays (stays_readField kind last) List.suffix_refl
    fun _ => List.suffix_refl []) '\x7b' []

/-! ## Lists of names -/

lemma stays_moreNames (separator : Char) : Stays (moreNames separator) := by
  intro ts
  fun_induction moreNames separator ts with
  | case1 => exact List.suffix_refl []
  | case2 _ _ _ _ _ ih => exact .cons (.cons (.map ih fun _ => rfl))
  | case3 => exact List.suffix_cons _ _
  | case4 => exact List.suffix_refl _

lemma stays_separatedNames (separator : Char) : Stays (separatedNames separator) := by
  intro ts
  refine .mono ?_ (passed_suffix (atPunct separator) ts)
  exact (stays_expectName _).bind fun (_, ts) => (stays_moreNames separator ts).bind
    fun (_, ts) => List.suffix_refl ts

/-! ## Definitions -/

lemma stays_readObject (kind : ObjectKind) (d : Option String) (extension : Bool)
    (line last : Nat) : Stays (readObject kind d extension line last) := fun ts =>
  (stays_expectName ts).bind fun (_, ts) =>
    .bindIte ((stays_separatedNames '&').optional (atName "implements") [] ts) fun (_, ts) =>
      (stays_directives 0 ts).bind fun (_, ts) => (stays_readFields kind last ts).bind
        fun (_, ts) => List.suffix_refl ts

lemma stays_readEnumValue : Stays readEnumValue := fun ts =>
  (stays_describe ts).bind fun (_, ts) => (stays_expectName ts).bind fun (_, ts) =>
    (stays_directives 0 ts).bind fun (_, ts) => List.suffix_refl ts

lemma stays_readEnum (d : Option String) : Stays (readEnum d) := fun ts =>
  (stays_expectName ts).bind fun (_, ts) => (stays_directives 0 ts).bind fun (_, ts) =>
    .bindIte (Stays.enclosed (rounds_enumValues.stays stays_readEnumValue List.suffix_refl
      fun _ => List.suffix_refl []) '\x7b' [] ts) fun (_, ts) => List.suffix_refl ts

lemma stays_readUnion (d : Option String) : Stays (readUnion d) := fun ts =>
  (stays_expectName ts).bind fun (_, ts) => (stays_directives 0 ts).bind fun (_, ts) =>
    .bindIte ((stays_separatedNames '|').optional (atPunct '=') [] ts) fun (_, ts) =>
      List.suffix_refl ts

lemma stays_readScalar : Stays readScalar := fun ts =>
  (stays_expectName ts).bind fun (_, ts) => (stays_directives 0 ts).bind fun (_, ts) =>
    List.suffix_refl ts

lemma stays_readPlaces : Stays readPlaces := fun ts =>
  (stays_separatedNames '|' ts).bind fun (_, ts) => List.suffix_refl ts

lemma stays_readDirective : Stays readDirective := by
  have places : Stays fun ts => if atName "on" ts then readPlaces ts.tail
      else .error ⟨.onExpected, ts⟩ := by
    intro ts
    dsimp only
    split_ifs
    · exact .behind stays_readPlaces ts
    · exact List.suffix_refl ts
  exact fun ts => (leaves_expectPunct '@' ts).bind fun ts => (stays_expectName ts).bind
    fun (_, ts) => (stays_arguments ts).bind fun (_, ts) =>
      (places _).mono (passed_suffix (atName "repeatable") ts)

lemma stays_readSchemaBlock : Stays readSchemaBlock := by
  have root : Stays readRoot := fun ts => (stays_expectName ts).bind fun (_, ts) =>
    (leaves_expectPunct ':' ts).bind fun ts => (stays_expectName ts).bind fun (_, ts) =>
      List.suffix_refl ts
  have roots : ∀ fuel, Stays (rootsFrom fuel) :=
    rounds_roots.stays root List.suffix_refl fun _ => List.suffix_refl []
  exact fun ts => (stays_directives 0 ts).bind fun (_, ts) => (leaves_expectPunct '\x7b' ts).bind
    fun ts => (roots _ ts).bind fun (_, ts) => List.suffix_refl ts

lemma stays_readBody (d : Option String) (extension : Bool) (line last : Nat) (keyword : String) :
    Stays (readBody d extension line last keyword) := by
  intro ts
  unfold readBody
  split
  · exact stays_readSchemaBlock ts
  · exact stays_readObject _ _ _ _ _ ts
  · exact stays_readObject _ _ _ _ _ ts
  · exact stays_readObject _ _ _ _ _ ts
  · exact stays_readEnum d ts
  · exact stays_readUnion d ts
  · exact stays_readScalar ts
  · exact stays_readDirective ts
  all_goals exact List.suffix_refl ts

lemma stays_readDefinition (last : Nat) : Stays (readDefinition last) := by
  have extend : Stays (readExtend last) := by
    intro ts
    unfold readExtend
    split_ifs
    · exact List.tail_suffix ts
    · exact List.suffix_refl ts
  rw [readDefinition_eq]
  exact fun ts => (stays_describe ts).bind fun (_, ts) => (extend ts).bind fun (_, ts) =>
    (stays_placed last ts).bind fun (_, ts) => stays_readBody _ _ _ _ _ ts

lemma leaves_definitionsFrom (last fuel : Nat) (ts : List Token) :
    Leaves (fun _ => []) ts (definitionsFrom last fuel ts) := by
  induction fuel generalizing ts with
  | zero => exact List.suffix_refl ts
  | succ fuel ih =>
    unfold definitionsFrom
    split_ifs
    · exact List.nil_suffix
    · exact (stays_readDefinition last ts).bind fun r => (ih r.2).bind fun _ => List.suffix_refl []

/-- The token that a fault points at: the first one left, or the last one of all. -/
def pointedAt (ts rest : List Token) : Option Token := rest.head?.or ts.getLast?

/-- A fault in a document has the line of the token that it points at. -/
theorem exists_token_of_fault {ts : List Token} {e : Fault} (failed : definitions ts = .error e) :
    e.rest <:+ ts ∧ ∃ t ∈ pointedAt ts e.rest, lineOf (lastLine ts) e.rest = t.line := by
  have suffix : Leaves (fun _ => []) ts (definitions ts) := leaves_definitionsFrom _ _ ts
  rw [failed] at suffix
  refine ⟨suffix, ?_⟩
  cases left : e.rest with
  | cons t rest => exact ⟨t, rfl, rfl⟩
  | nil =>
    cases ends : ts.getLast? with
    | some t => exact ⟨t, ends, by rw [lineOf, lastLine, ends]; rfl⟩
    | none =>
      rw [List.getLast?_eq_none_iff] at ends
      subst ends
      cases failed

end ApiCanon.GraphQl
