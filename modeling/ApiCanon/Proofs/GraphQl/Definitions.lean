import ApiCanon.Proofs.GraphQl.Readings
import Mathlib.Data.List.ReduceOption

/-!
# Reading documents

The reader of a document accepts exactly the grammar, and gives the definitions that are spelled
out (`definitions_eq_ok_iff_document`).

Each reader is first written as readers one behind the other, so that the rule of the grammar and
the reader have the same shape, and reading is then shown part by part.  Readers that go on in
rounds or behind a mark are handed to `Rounds.reads` and `Trail.reads`.  What is left to a
definition is that it ends where the next one begins: no lexeme that may go on with a definition
(`definitionBars`) begins one.
-/

namespace ApiCanon.GraphQl

open Phrase Grammar

/-! ## Fields -/

/-- Reads the arguments of a field. -/
def readFieldArguments (kind : ObjectKind) : Reader (List Argument) := fun ts =>
  if kind = .input then .ok ([], ts) else GraphQl.arguments ts

lemma reads_readFieldArguments (kind : ObjectKind) :
    Reads (readFieldArguments kind) (fieldArguments kind) [.punct '('] := by
  unfold readFieldArguments fieldArguments
  split
  · exact .pure [] _
  · exact reads_arguments

lemma readField_eq (kind : ObjectKind) (last : Nat) : readField kind last = (fun ts => do
    let (d, ts) ← describe ts
    let ((n, line), ts) ← placed last ts
    let (as, ts) ← readFieldArguments kind ts
    let ((t, ds), ts) ← typedName ts
    pure (⟨d, n, as, t, ds.contains "deprecated", line⟩, ts)) := by
  funext ts
  simp only [readField, placed, readFieldArguments]
  by_cases input : kind = .input
  · simp only [input, if_true, bind_assoc]
    rfl
  · simp only [input, if_false, bind_assoc]
    rfl

lemma reads_readField (kind : ObjectKind) (last : Nat) :
    Reads (readField kind last) (field kind) typedBars := by
  rw [readField_eq]
  refine .described (fun d => .andThen (reads_placed last) fun ⟨n, line⟩ => ?_) fun d =>
    named_placedName.andThen
  refine .bind (reads_readFieldArguments kind) (fun as => ?_) fun as => ?_
  · exact .last reads_typedName (List.Subset.refl _) fun _ _ => rfl
  · exact .andThen (.andThen (.token (by simp)))

lemma rounds_fields (kind : ObjectKind) (last : Nat) :
    Rounds '\x7d' (readField kind last) (fieldsFrom kind last) where
  out := nofun
  unclosed := by rintro (_ | _) r <;> nofun
  close := fun fuel line ts => rfl
  next := by
    intro fuel t ts opens
    rw [fieldsFrom, (tests_atPunct '\x7d').of_other opens]
    rfl

lemma reads_readFields (kind : ObjectKind) (last : Nat) : Reads (readFields kind last)
    (Phrase.optional [] (enclosed '\x7b' '\x7d' (field kind))) [.punct '\x7b'] :=
  reads_enclosed (rounds_fields kind last) (reads_readField kind last)
    (worded_described fun d => named_placedName.andThen) typedBars_puncts (by simp [typedBars])

/-! ## Lists of names -/

lemma trail_moreNames (separator : Char) : Trail (.punct separator)
    (fun ts => expectPunct separator ts >>= expectName) (moreNames separator) where
  stop := by
    intro ts clear
    cases ts with
    | nil => rfl
    | cons t r =>
      have stops : t.lexeme ≠ .punct separator := by simpa using clear
      unfold moreNames
      simp [stops]
  next := by
    intro line ts
    have head : expectPunct separator (⟨.punct separator, line⟩ :: ts) = .ok ts :=
      expectPunct_eq_ok_iff.2 ⟨line, rfl⟩
    conv_lhs => unfold moreNames
    dsimp only
    rw [if_pos rfl, head]
    split
    · next n line' r =>
      rw [map_eq_bind]
      rfl
    · next other =>
      have missing : (Except.ok ts >>= expectName : Read (String × List Token)) =
          .error ⟨.nameExpected, ts⟩ := expectName_of_other other
      rw [missing]
      rfl

/-- Reads names with separators between them. -/
def readNames (separator : Char) : Reader (List String) := fun ts => do
  let (n, ts) ← expectName ts
  let (ns, ts) ← moreNames separator ts
  pure (n :: ns, ts)

lemma reads_readNames (separator : Char) :
    Reads (readNames separator) (names separator) [.punct separator] := by
  have others : Reads (moreNames separator) (many do punct separator; name) [.punct separator] :=
    (trail_moreNames separator).reads reads_expectName.expectPunct (begins_token _ _)
      List.not_mem_nil
  refine .andThen reads_expectName fun n => ?_
  exact .last others (List.Subset.refl _) fun _ _ => rfl

lemma reads_separatedNames (separator : Char) :
    Reads (separatedNames separator) (separated separator) [.punct separator] :=
  (tests_atPunct separator).passes (reads_readNames separator)
    (named_name.andThen.worded.clears (by simp))

/-! ## Bodies of definitions -/

/-- What may go on with a definition. -/
def definitionBars : List Lexeme :=
  [.punct '@', .punct '(', .punct '\x7b', .punct '=', .punct '&', .punct '|', .name "implements"]

/-- Reads a value of an enumeration. -/
def readEnumValue : Reader String := fun ts => do
  let (_, ts) ← describe ts
  let (v, ts) ← expectName ts
  let (_, ts) ← GraphQl.directives 0 ts
  pure (v, ts)

lemma reads_readEnumValue : Reads readEnumValue enumValue [.punct '@', .punct '('] := by
  refine .described (fun d => .andThen reads_expectName fun n => ?_) fun d => named_name.andThen
  exact .last reads_directives (List.Subset.refl _) fun _ _ => rfl

lemma rounds_enumValues : Rounds '\x7d' readEnumValue enumValuesFrom where
  out := nofun
  unclosed := by rintro (_ | _) r <;> nofun
  close := fun fuel line ts => rfl
  next := by
    intro fuel t ts opens
    rw [enumValuesFrom, (tests_atPunct '\x7d').of_other opens]
    simp only [readEnumValue, bind_assoc]
    rfl

/-- Reads an operation with its type. -/
def readRoot : Reader (String × String) := fun ts => do
  let (operation, ts) ← expectName ts
  let ts ← expectPunct ':' ts
  let (type, ts) ← expectName ts
  pure ((operation, type), ts)

lemma reads_readRoot : Reads readRoot root [] := by
  refine .andThen reads_expectName fun operation => .expectPunct ?_
  exact .last reads_expectName (List.Subset.refl _) fun _ _ => rfl

lemma rounds_roots : Rounds '\x7d' readRoot rootsFrom where
  out := nofun
  unclosed := by rintro (_ | _) r <;> nofun
  close := fun fuel line ts => rfl
  next := by
    intro fuel t ts opens
    rw [rootsFrom, (tests_atPunct '\x7d').of_other opens]
    simp only [readRoot, bind_assoc]
    rfl

/-- Reads operations in braces. -/
def readRoots : Reader (List (String × String)) := fun ts =>
  expectPunct '\x7b' ts >>= fun ts => rootsFrom (ts.length + 1) ts

lemma reads_readRoots : Reads readRoots (enclosed '\x7b' '\x7d' root) [] :=
  .expectPunct <| rounds_roots.reads reads_readRoot named_name.andThen.worded nofun
    List.not_mem_nil fun _ => Nat.lt_succ_self _

lemma readSchemaBlock_eq : readSchemaBlock = (fun ts => do
    let (_, ts) ← GraphQl.directives 0 ts
    let (rs, ts) ← readRoots ts
    pure (some (.roots rs), ts)) := by
  funext ts
  simp only [readSchemaBlock, readRoots, bind_assoc]

lemma reads_readSchemaBlock : Reads readSchemaBlock schemaBlock definitionBars := by
  rw [readSchemaBlock_eq]
  refine .bind reads_directives (fun _ => ?_) fun _ => ?_
  · exact .last reads_readRoots (List.nil_subset _) fun _ _ => rfl
  · exact .andThen (.andThen (.token (by simp)))

lemma reads_readObject (kind : ObjectKind) (d : Option String) (extension : Bool)
    (line last : Nat) : Reads (readObject kind d extension line last)
      (object kind d extension line) definitionBars := by
  refine .andThen reads_expectName fun n => .bindIte
    ((tests_atName "implements").reads (reads_separatedNames '&') []) (fun _ => ?_) fun _ => ?_
  · refine .bind reads_directives (fun _ => ?_) fun _ => ?_
    · exact .last (reads_readFields kind last) (by simp [definitionBars]) fun _ _ => rfl
    · exact .last (clears_enclosed (by simp) (by simp [definitionBars]))
  · refine .bind (clears_directives (by simp) (List.Subset.refl _)) fun _ => ?_
    exact .last (clears_enclosed (by simp) (by simp [definitionBars]))

lemma reads_readEnum (d : Option String) : Reads (readEnum d) (enum d) definitionBars := by
  have values : Reads
      (fun ts => if atPunct '\x7b' ts then enumValuesFrom (ts.length + 1) ts.tail else .ok ([], ts))
      (Phrase.optional [] (enclosed '\x7b' '\x7d' enumValue)) [.punct '\x7b'] :=
    reads_enclosed rounds_enumValues reads_readEnumValue
      (worded_described fun d => named_name.andThen) (by simp) (by simp)
  refine .andThen reads_expectName fun n => .bind reads_directives (fun _ => ?_) fun _ => ?_
  · exact .bindIte values (fun vs => .pure _ _) fun vs => .pure (by simp [definitionBars])
  · exact .last (clears_enclosed (by simp) (by simp [definitionBars]))

lemma reads_readUnion (d : Option String) : Reads (readUnion d) (union d) definitionBars := by
  refine .andThen reads_expectName fun n => .bind reads_directives (fun _ => ?_) fun _ => ?_
  · exact .bindIte ((tests_atPunct '=').reads (reads_separatedNames '|') []) (fun _ => .pure _ _)
      fun _ => .pure (by simp [definitionBars])
  · exact .last (.optional (.andThen (.token (by simp))) (by simp [definitionBars]))

/-- Reads a scalar behind its keyword. -/
def readScalar : Reader (Option Definition) := fun ts => do
  let (n, ts) ← expectName ts
  let (_, ts) ← GraphQl.directives 0 ts
  pure (some (.scalar n), ts)

lemma reads_readScalar : Reads readScalar scalar definitionBars := by
  refine .andThen reads_expectName fun n => ?_
  exact .last reads_directives (by simp [definitionBars]) fun _ _ => rfl

/-- Reads the places of a directive, and leaves nothing behind. -/
def readPlaces : Reader (Option Definition) := fun ts => do
  let (_, ts) ← separatedNames '|' ts
  pure (none, ts)

lemma reads_readPlaces :
    Reads readPlaces (do let _ ← separated '|'; return none) definitionBars :=
  .last (reads_separatedNames '|') (by simp [definitionBars]) fun _ _ => rfl

lemma reads_readDirective : Reads readDirective directiveDefinition definitionBars := by
  have locations := (tests_atName "on").expects reads_readPlaces (⟨.onExpected, ·⟩)
  have repeatable := (tests_atName "repeatable").passes locations (.andThen (.token (by simp)))
  refine .expectPunct (.andThen reads_expectName fun _ =>
    .bind reads_arguments (fun _ => repeatable) fun _ => ?_)
  exact .bind (.optional (.token (by simp)) (List.Subset.refl _)) fun _ =>
    .andThen (.token (by simp))

/-! ## Definitions -/

/-- Reads the mark of an extension, if it is there: its line. -/
def readExtend (last : Nat) : Reader (Option Nat) := fun ts =>
  if atName "extend" ts then .ok (some (lineOf last ts), ts.tail) else .ok (none, ts)

lemma reads_readExtend (last : Nat) : Reads (readExtend last) extended [.name "extend"] where
  sound := by
    intro ts e rest accepted
    unfold readExtend at accepted
    split at accepted
    · next found =>
      obtain ⟨line, r, rfl⟩ := (tests_atName "extend" ts).1 found
      cases accepted
      exact ⟨_, .inl ⟨line, _, [], rfl, ⟨rfl, rfl⟩, rfl⟩, rfl⟩
    · cases accepted
      exact ⟨[], .inr ⟨rfl, rfl⟩, rfl⟩
  complete := by
    rintro e _ rest (⟨line, _, _, rfl, ⟨rfl, rfl⟩, rfl⟩ | ⟨rfl, rfl⟩) clear
    · rfl
    · exact if_neg (Bool.eq_false_iff.1 ((tests_atName "extend").of_clear clear))

/-- Reads a definition behind its keyword. -/
def readBody (d : Option String) (extension : Bool) (line last : Nat) (keyword : String)
    (ts : List Token) : Read (Option Definition × List Token) :=
  match keyword with
  | "schema" => readSchemaBlock ts
  | "type" => readObject .type d extension line last ts
  | "input" => readObject .input d extension line last ts
  | "interface" => readObject .interface d extension line last ts
  | "enum" => readEnum d ts
  | "union" => readUnion d ts
  | "scalar" => readScalar ts
  | "directive" => readDirective ts
  | "query" => .error ⟨.executable, ts⟩
  | "mutation" => .error ⟨.executable, ts⟩
  | "subscription" => .error ⟨.executable, ts⟩
  | "fragment" => .error ⟨.executable, ts⟩
  | w => .error ⟨.unexpectedKeyword w, ts⟩

/-- Reads a definition behind its description and the mark of an extension. -/
def readDescribed (d : Option String) (extended : Option Nat) (last : Nat) :
    Reader (Option Definition) := fun ts => do
  let ((keyword, line), ts) ← placed last ts
  readBody d extended.isSome (extended.getD line) last keyword ts

lemma readDefinition_eq (last : Nat) : readDefinition last = (fun ts => do
    let (d, ts) ← describe ts
    let (e, ts) ← readExtend last ts
    readDescribed d e last ts) := by
  funext ts
  simp only [readDefinition, readDescribed, describe, readExtend, placed, bind_assoc, ok_bind]
  cases atName "extend" (GraphQl.description ts).2 <;> rfl

lemma reads_readDescribed (d : Option String) (e : Option Nat) (last : Nat) :
    Reads (readDescribed d e last) (described d e) definitionBars := by
  refine .keyed last (fun v => readBody d e.isSome (e.getD v.2) last v.1) ?each ?known
  case each =>
    simp only [List.forall_mem_cons]
    exact ⟨fun _ => reads_readSchemaBlock, fun _ => reads_readObject _ _ _ _ _,
      fun _ => reads_readObject _ _ _ _ _, fun _ => reads_readObject _ _ _ _ _,
      fun _ => reads_readEnum d, fun _ => reads_readUnion d, fun _ => reads_readScalar,
      fun _ => reads_readDirective, nofun⟩
  case known =>
    intro w line ts r accepted
    dsimp only [readBody] at accepted
    split at accepted
    all_goals first | cases accepted | simp

lemma named_extended (d : Option String) : (extended >>= described d).Named := by
  rintro v _ ⟨e, l, m, hl | hl, hm, rfl⟩
  · obtain ⟨n, line, l, rfl⟩ := (named_placedWord "extend").andThen e l hl
    exact ⟨n, line, l ++ m, rfl⟩
  · obtain ⟨-, rfl⟩ := hl
    exact named_keyed _ v m hm

lemma worded_definition : definition.Worded := worded_described named_extended

lemma reads_readDefinition (last : Nat) :
    Reads (readDefinition last) definition definitionBars := by
  rw [readDefinition_eq]
  refine .described (fun d => .bind (reads_readExtend last) (fun e => ?_) fun e => ?_)
    fun d => named_extended d
  · exact reads_readDescribed d e last
  · exact .keyed (by simp)

/-- Whatever may go on with a definition does not begin the next one. -/
lemma clears_definition : definition.Clears definitionBars definitionBars := by
  refine .bind (.optional (.andThen ?_) (List.Subset.refl _)) fun d =>
    .bind (.optional (.andThen (.placedWord (by decide))) (List.Subset.refl _)) fun e =>
      .keyed (by simp [definitionBars])
  rintro s _ rest ⟨line, rfl⟩ -
  exact clear_cons.2 (by simp [definitionBars])

/-! ## Documents -/

lemma sound_definitionsFrom {last fuel : Nat} {ts : List Token} {ds : List Definition}
    (accepted : definitionsFrom last fuel ts = .ok ds) :
    ∃ os, Many definition os ts ∧ ds = os.reduceOption := by
  induction fuel generalizing ts ds with
  | zero => cases accepted
  | succ fuel ih =>
    cases ts with
    | nil =>
      cases accepted
      exact ⟨[], .nil, rfl⟩
    | cons t r =>
      obtain ⟨⟨o, rest⟩, head, behind⟩ := bind_eq_ok_iff.1 accepted
      obtain ⟨ds, others, made⟩ := bind_eq_ok_iff.1 behind
      cases made
      obtain ⟨l, first, here⟩ := (reads_readDefinition last).sound head
      obtain ⟨os, derived, rfl⟩ := ih others
      rw [here]
      refine ⟨o :: os, .cons first derived, ?_⟩
      cases o <;> simp

lemma complete_definitionsFrom (last : Nat) {os : List (Option Definition)} {ts : List Token}
    (derived : Many definition os ts) {fuel : Nat} (enough : ts.length < fuel) :
    definitionsFrom last fuel ts = .ok os.reduceOption := by
  induction derived generalizing fuel with
  | nil =>
    obtain ⟨fuel, rfl⟩ := Nat.exists_eq_succ_of_ne_zero (Nat.ne_zero_of_lt enough)
    rfl
  | @cons o os l m first others ih =>
    obtain ⟨fuel, rfl⟩ := Nat.exists_eq_succ_of_ne_zero (Nat.ne_zero_of_lt enough)
    have clear : Clear definitionBars m := by
      have behind := Clears.many clears_definition (List.Subset.refl _) os m [] others (clear_nil _)
      rwa [List.append_nil] at behind
    have head := (reads_readDefinition last).complete first clear
    obtain ⟨t, l, rfl, -⟩ := worded_definition o l first
    have fewer : m.length < fuel := by
      simp only [List.length_append, List.length_cons] at enough
      omega
    have spelled : o.toList ++ os.reduceOption = (o :: os).reduceOption := by cases o <;> simp
    rw [definitionsFrom, head, ← spelled]
    simp [ok_bind, ih fewer]

/-- A text is a document of the definitions that the grammar spells out by its tokens. -/
lemma document_eq_ok_iff {text : List Char} {ds : List Definition} :
    GraphQl.document text = .ok ds ↔
      ∃ ts os, tokens text = .ok ts ∧ Many definition os ts ∧ ds = os.reduceOption := by
  unfold GraphQl.document
  cases tokens text with
  | error e => exact iff_of_false nofun nofun
  | ok ts =>
    dsimp only
    constructor
    · intro accepted
      split at accepted
      · next spelled =>
        cases accepted
        obtain ⟨os, derived, same⟩ := sound_definitionsFrom spelled
        exact ⟨ts, os, rfl, derived, same⟩
      · cases accepted
    · rintro ⟨_, os, ⟨⟩, derived, rfl⟩
      have spelled : definitions ts = .ok os.reduceOption :=
        complete_definitionsFrom _ derived (Nat.lt_succ_self _)
      rw [spelled]

/-- **The reader of definitions accepts its grammar.**  Tokens are accepted as definitions exactly
if they are a document of the grammar, and the definitions are those that the document spells out,
with all their data. -/
theorem definitions_eq_ok_iff_document (ts : List Token) (ds : List Definition) :
    definitions ts = .ok ds ↔ Grammar.document ds ts := by
  constructor
  · intro accepted
    obtain ⟨os, derived, rfl⟩ := sound_definitionsFrom accepted
    exact ⟨os, ts, [], derived, ⟨rfl, rfl⟩, (List.append_nil ts).symm⟩
  · rintro ⟨os, l, _, derived, ⟨rfl, rfl⟩, rfl⟩
    rw [List.append_nil]
    exact complete_definitionsFrom _ derived (Nat.lt_succ_self _)

/-- Brackets of another kind need not match: `scalar Date @format(])` is a document. -/
example : definitions [⟨.name "scalar", 1⟩, ⟨.name "Date", 1⟩, ⟨.punct '@', 1⟩, ⟨.name "format", 1⟩,
    ⟨.punct '(', 1⟩, ⟨.punct ']', 1⟩, ⟨.punct ')', 1⟩] = .ok [.scalar "Date"] := rfl

end ApiCanon.GraphQl
