import ApiCanon.Proofs.GraphQl.Contributions
import ApiCanon.Proofs.GraphQl.Faults
import ApiCanon.Proofs.GraphQl.Layout

/-!
# Lines of tokens and of what is reported

The line of a token is that of its first character as long as no text on one line has had a line
feed in it, which the reader of such a text passes over behind a backslash and does not count
(`numbered_eq_iff`).

Whatever is reported of a document has the line of the token that it points at (`Reported`): an
error of the token where the reader of definitions stopped, a warning of the name of a field or of
the keyword of a type.  So a report is right if its token is (`token_lines`).
-/

namespace ApiCanon.GraphQl

open Phrase Grammar

/-! ## Lines of tokens -/

/-- The lines that the reader gives are those of the first characters if and only if no line feed
has been left uncounted in front of a token. -/
lemma numbered_eq_iff (hidden : Nat) (ps : List Place) :
    numbered hidden ps = ps.map Place.token ↔
      ps = [] ∨ hidden = 0 ∧ ∀ p ∈ ps.dropLast, hiddenFeeds p.written = 0 := by
  induction ps generalizing hidden with
  | nil => simp [numbered]
  | cons p ps ih =>
    have here : p.line - hidden = p.line ↔ hidden = 0 := by
      have first : 1 ≤ p.line := Nat.le_add_left 1 _
      omega
    rw [numbered, List.map_cons, List.cons.injEq, ih, Place.token, Token.mk.injEq, here]
    cases ps with
    | nil => simp
    | cons q ps =>
      simp only [true_and, reduceCtorEq, false_or, List.dropLast_cons_cons, List.forall_mem_cons,
        Nat.add_eq_zero_iff]
      tauto

/-! ## Tokens of definitions -/

/-- The keyword of a kind of definitions. -/
def ObjectKind.keyword : ObjectKind → String
  | type => "type"
  | input => "input"
  | interface => "interface"

/-- A definition whose lines are those of tokens: of the names of its fields, and of its keyword if
it extends no other one. -/
structure Definition.Stands (ts : List Token) (d : Definition) : Prop where
  fields : ∀ f ∈ d.fields, f.token ∈ ts
  head : ∀ {kind name description fields line},
    d = .object kind name description fields false line →
      ∃ line', [⟨.name kind.keyword, line⟩, ⟨.name name, line'⟩] <:+: ts

/-- A member of a repeated phrase is spelled out by tokens behind one another. -/
lemma infix_of_many {α : Type} {g : Phrase α} {as : List α} {ts : List Token}
    (derived : Many g as ts) : ∀ a ∈ as, ∃ l, g a l ∧ l <:+: ts := by
  induction derived with
  | nil => nofun
  | @cons a as l m first others ih =>
    refine List.forall_mem_cons.2 ⟨⟨l, first, (List.prefix_append l m).isInfix⟩, fun b hb => ?_⟩
    obtain ⟨k, hk, inside⟩ := ih b hb
    exact ⟨k, hk, inside.trans (List.suffix_append l m).isInfix⟩

/-- A definition of an object begins with its name, and one that extends no other has the line of
the keyword in front of the name. -/
lemma head_of_object {kind kind' : ObjectKind} {d d' : Option String} {e : Option Nat}
    {line line' : Nat} {name : String} {fields : List Field} {l : List Token}
    (derived : object kind d e.isSome (e.getD line)
      (some (.object kind' name d' fields false line')) l) :
    kind' = kind ∧ line' = line ∧ ∃ at' m, l = ⟨.name name, at'⟩ :: m := by
  obtain ⟨n, _, m, ⟨at', rfl⟩,
    ⟨_, _, _, -, ⟨_, _, _, -, ⟨fs, _, _, -, ⟨same, -⟩, -⟩, -⟩, -⟩, rfl⟩ :=
    derived
  cases e with
  | some e => cases same
  | none =>
    cases same
    exact ⟨rfl, rfl, at', m, rfl⟩

lemma head_of_definition {kind : ObjectKind} {name : String} {d : Option String}
    {fields : List Field} {line : Nat} {l : List Token}
    (derived : definition (some (.object kind name d fields false line)) l) :
    ∃ line', [⟨.name kind.keyword, line⟩, ⟨.name name, line'⟩] <:+: l := by
  obtain ⟨d', l, _, -, ⟨e, l', _, -, ⟨p, mem, at', _, m, rfl, body, rfl⟩, rfl⟩, rfl⟩ := derived
  suffices head : kind.keyword = p.1 ∧ line = at' ∧ ∃ line' m', m = ⟨.name name, line'⟩ :: m' by
    obtain ⟨keyword, rfl, line', m', rfl⟩ := head
    exact ⟨line', l ++ l', m', by simp [keyword]⟩
  -- Three keywords are those of objects; what stands behind the other five is never an object.
  simp only [List.mem_cons, List.not_mem_nil, or_false] at mem
  rcases mem with rfl | rfl | rfl | rfl | rfl | rfl | rfl | rfl
  · obtain ⟨_, _, _, -, ⟨_, _, _, -, ⟨⟨⟩, -⟩, -⟩, -⟩ := body
  · obtain ⟨rfl, here, begins⟩ := head_of_object body
    exact ⟨rfl, here, begins⟩
  · obtain ⟨rfl, here, begins⟩ := head_of_object body
    exact ⟨rfl, here, begins⟩
  · obtain ⟨rfl, here, begins⟩ := head_of_object body
    exact ⟨rfl, here, begins⟩
  · obtain ⟨_, _, _, -, ⟨_, _, _, -, ⟨_, _, _, -, ⟨⟨⟩, -⟩, -⟩, -⟩, -⟩ := body
  · obtain ⟨_, _, _, -, ⟨_, _, _, -, ⟨_, _, _, -, ⟨⟨⟩, -⟩, -⟩, -⟩, -⟩ := body
  · obtain ⟨_, _, _, -, ⟨_, _, _, -, ⟨⟨⟩, -⟩, -⟩, -⟩ := body
  · obtain ⟨_, _, _, -, ⟨_, _, _, -,
      ⟨_, _, _, -, ⟨_, _, _, -, ⟨_, _, _, -, ⟨_, _, _, -, ⟨⟨⟩, -⟩, -⟩, -⟩, -⟩, -⟩, -⟩, -⟩ := body

/-- The definitions of a document stand among its tokens. -/
lemma stands_of_many {os : List (Option Definition)} {ts : List Token}
    (derived : Many definition os ts) : ∀ d ∈ os.reduceOption, d.Stands ts := by
  intro d hd
  have mem := List.reduceOption_mem_iff.1 hd
  refine ⟨fun f hf => token_mem_of_many derived mem hf, ?_⟩
  rintro kind name description fields line rfl
  obtain ⟨l, spelled, inside⟩ := infix_of_many derived _ mem
  obtain ⟨line', head⟩ := head_of_definition spelled
  exact ⟨line', head.trans inside⟩

/-! ## Warnings -/

/-- A warning about a document that points at its tokens. -/
inductive Warned (ts : List Token) : Issue → Prop
  /-- The name of a field of a root type, of which the key is taken. -/
  | field (verb : Method) {name : String} {line : Nat} (mem : ⟨.name name, line⟩ ∈ ts) :
      Warned ts ⟨.duplicateEndpoint,
        "Duplicate root field " ++ (⟨verb, name⟩ : EndpointKey).text, some line⟩
  /-- The keyword of a type, of which the name is taken. -/
  | type {kind : ObjectKind} {name : String} {line line' : Nat}
      (head : [⟨.name kind.keyword, line⟩, ⟨.name name, line'⟩] <:+: ts) :
      Warned ts ⟨.duplicateSchema, s!"Duplicate type '{name}'", some line⟩
  /-- What is found only when all types are put together has no line. -/
  | unplaced (name : String) : Warned ts (duplicateType name)

section Warnings

variable {ts : List Token} {s : Settings} {roots : Roots} {scalars : List String} {p : Progress}

lemma warned_addField (warned : ∀ w ∈ p.warnings, Warned ts w) {f : Field} (stands : f.token ∈ ts)
    (m : Method) : ∀ w ∈ (p.addField s scalars m f).warnings, Warned ts w := by
  rw [Progress.addField_eq]
  refine List.forall_mem_append.2 ⟨warned, ?_⟩
  split_ifs
  · nofun
  · exact List.forall_mem_singleton.2 (.field m stands)

lemma warned_addFields (warned : ∀ w ∈ p.warnings, Warned ts w) {fs : List Field}
    (stand : ∀ f ∈ fs, f.token ∈ ts) (m : Method) :
    ∀ w ∈ (fs.foldl (Progress.addField s scalars m) p).warnings, Warned ts w :=
  List.foldlRecOn (motive := fun p : Progress => ∀ w ∈ p.warnings, Warned ts w) fs _ warned
    fun _ sofar f hf => warned_addField sofar (stand f hf) m

lemma warned_add (warned : ∀ w ∈ p.warnings, Warned ts w) {d : Definition} (stands : d.Stands ts) :
    ∀ w ∈ (p.add s roots scalars d).warnings, Warned ts w := by
  cases root : d.rootVerb? roots with
  | some m =>
    rw [Progress.add_of_root root]
    exact warned_addFields warned stands.fields m
  | none =>
    cases d with
    | object kind name description fields extension line =>
      rw [Progress.add_object root]
      unfold Progress.addObject
      split_ifs with known marked
      · exact warned
      · obtain rfl := Bool.eq_false_iff.2 marked
        obtain ⟨line', head⟩ := stands.head rfl
        exact List.forall_mem_append.2 ⟨warned, List.forall_mem_singleton.2 (.type head)⟩
      · exact warned
    | enum | union | scalar | roots => exact warned

lemma warned_foldl_add (warned : ∀ w ∈ p.warnings, Warned ts w) {ds : List Definition}
    (stand : ∀ d ∈ ds, d.Stands ts) :
    ∀ w ∈ (ds.foldl (Progress.add s roots scalars) p).warnings, Warned ts w :=
  List.foldlRecOn (motive := fun p : Progress => ∀ w ∈ p.warnings, Warned ts w) ds _ warned
    fun _ sofar d hd => warned_add sofar (stand d hd)

end Warnings

/-! ## Reports -/

/-- What is reported of a document when it is read or checked, by the tokens that it points at. -/
structure Reported (s : Settings) (text : List Char) (ts : List Token) : Prop where
  /-- An error is that of the reader of definitions. -/
  errors : ∀ i ∈ (read text s).errors ++ check text, ∃ cause rest, ∃ t ∈ pointedAt ts rest,
    rest <:+ ts ∧ definitions ts = .error ⟨cause, rest⟩ ∧ i = .parseErrorAt t.line cause.message
  warnings : ∀ w ∈ (read text s).warnings, Warned ts w

lemma reported_of_fault {text : List Char} {ts : List Token} {e : Fault}
    (found : tokens text = .ok ts) (failed : definitions ts = .error e) (s : Settings) :
    Reported s text ts := by
  have spelled : document text =
      .error (.parseErrorAt (lineOf (lastLine ts) e.rest) e.cause.message) := by
    rw [document, found]
    dsimp only
    rw [failed]
  obtain ⟨suffix, t, points, line⟩ := exists_token_of_fault failed
  rw [line] at spelled
  refine ⟨fun i reported => ⟨e.cause, e.rest, t, points, suffix, failed, ?_⟩, ?_⟩
  · simp only [read, check, spelled] at reported
    simpa [Reading.failure] using reported
  · simp [read, spelled, Reading.failure]

lemma reported_of_document {text : List Char} {ts : List Token} {ds : List Definition}
    (found : tokens text = .ok ts) (defined : definitions ts = .ok ds) (s : Settings) :
    Reported s text ts := by
  have spelled : document text = .ok ds := by
    rw [document, found]
    dsimp only
    rw [defined]
  obtain ⟨os, derived, rfl⟩ := sound_definitionsFrom defined
  have warned : ∀ w ∈ (os.reduceOption.foldl
      (Progress.add s (rootsOf os.reduceOption) (scalarsOf os.reduceOption))
      ⟨(Draft.start SourceKind.graphQl.tag).project s.projectName s.projectVersion, [],
        []⟩).warnings,
      Warned ts w := warned_foldl_add (List.forall_mem_nil _) (stands_of_many derived)
  constructor
  · simp [read, check, spelled, Reading.success]
  · rw [read, spelled]
    dsimp only
    generalize os.reduceOption.foldl (Progress.add s _ _) _ = p at warned
    obtain ⟨names, run⟩ := foldl_addSchema_eq p.schemas p.draft p.warnings
    rw [Progress.addSchemas, run]
    exact List.forall_mem_append.2 ⟨warned, List.forall_mem_map.2 fun name _ => .unplaced name⟩

/-- **The line of a token is that of its first character, as long as no text on one line has a line
feed in it.**  The tokens of a text are those that it is laid out as, and each is given the line of
its first character, if and only if no token but the last one hides line feeds: such a text may have
them behind backslashes, and the reader does not count them.  Every error of syntax, and every
warning with a line, has the line of the token that it points at. -/
theorem token_lines {text : List Char} {ts : List Token} (found : tokens text = .ok ts)
    (s : Settings) :
    (∃ ps, Laid [] text ps) ∧
      (∀ ps, Laid [] text ps → ts = numbered 0 ps ∧
        (ts = ps.map Place.token ↔ ∀ p ∈ ps.dropLast, hiddenFeeds p.written = 0)) ∧
      Reported s text ts := by
  refine ⟨exists_laid found [], fun ps laid => ?_, ?_⟩
  · have same : ts = numbered 0 ps := Except.ok.inj (found.symm.trans (laid.tokensFrom_eq rfl))
    refine ⟨same, ?_⟩
    rw [same, numbered_eq_iff]
    cases ps with
    | nil => simp
    | cons p ps => simp
  · cases read : definitions ts with
    | ok ds => exact reported_of_document found read s
    | error e => exact reported_of_fault found read s

/-- A comment and a text on two lines in front of a brace where a name is expected. -/
theorem token_lines_brace :
    tokens "#\n\"\"\"a\nb\"\"\"\n\x7b".toList = .ok [⟨.text "a\nb", 2⟩, ⟨.punct '\x7b', 4⟩] ∧
      (∃ ps, Laid [] "#\n\"\"\"a\nb\"\"\"\n\x7b".toList ps) ∧
      Reported (.ofConfig none) "#\n\"\"\"a\nb\"\"\"\n\x7b".toList
        [⟨.text "a\nb", 2⟩, ⟨.punct '\x7b', 4⟩] ∧
      check "#\n\"\"\"a\nb\"\"\"\n\x7b".toList = [.parseErrorAt 4 "Expected a name"] := by
  have found : tokens "#\n\"\"\"a\nb\"\"\"\n\x7b".toList =
      .ok [⟨.text "a\nb", 2⟩, ⟨.punct '\x7b', 4⟩] := by decide +kernel
  obtain ⟨laid, -, reported⟩ := token_lines found (.ofConfig none)
  exact ⟨found, laid, reported, by decide +kernel⟩

/-- A name behind a line feed, which stands in a text behind a backslash, is found on the first
line. -/
theorem line_ne_of_hiddenFeed :
    ∃ ps, Laid [] "\"p\\\nq\"x".toList ps ∧
      ps.map Place.token = [⟨.text "p\nq", 1⟩, ⟨.name "x", 2⟩] ∧
      tokens "\"p\\\nq\"x".toList = .ok [⟨.text "p\nq", 1⟩, ⟨.name "x", 1⟩] := by
  have spelled : Spelled Quotable ['p', '\n', 'q'] ['p', '\\', '\n', 'q'] :=
    .cons (Quotable.itself (by decide)) <| .cons (Quotable.escaped (e := '\n') (by decide)) <|
      .cons (Quotable.itself (by decide)) .nil
  refine ⟨[⟨[], "\"p\\\nq\"".toList, .text "p\nq"⟩, ⟨"\"p\\\nq\"".toList, ['x'], .name "x"⟩],
    ?_, by decide +kernel, by decide +kernel⟩
  exact .token (.text (.quoted spelled nofun))
    (.token (.name (by decide) (List.forall_mem_nil _) (by simp)) (.nil _))

end ApiCanon.GraphQl
