import ApiCanon.Proofs.GraphQl.Contributions
import Mathlib.Data.List.Pairwise

/-!
# Extensions of types

What becomes of a type that is written in several places: once in full, and elsewhere in extensions
that are marked as such.  The schema of its name is meant to gather what all of them say
(`Gathers`), wherever they stand.

It does so exactly if nothing is dropped (`extensions_gathered_iff`): what comes first is taken as
it is, and of what comes behind it only the fields of marked objects are added.  The values that the
extension of an enumeration adds are lost, and so is whatever a type says that stands behind an
extension of it.

A definition that has been read does not tell whether an enumeration was marked.  The marks are
those of the grammar (`Grammar.entry`), and a text is written with them (`Written`).
-/

namespace ApiCanon.GraphQl

open Phrase Grammar

/-! ## Marks -/

/-- A definition, with whether it is marked as an extension. -/
abbrev Entry := Bool × Definition

/-- The rule of definitions, with the mark of an extension. -/
def Grammar.entry : Phrase (Option Entry) := do
  let d ← Grammar.description
  let e ← extended
  let o ← described d e
  return o.map (e.isSome, ·)

/-- A text that the grammar spells out as certain definitions with their marks. -/
def Written (text : List Char) (es : List Entry) : Prop :=
  ∃ ts os, tokens text = .ok ts ∧ Many entry os ts ∧ es = os.reduceOption

lemma definition_of_entry {o : Option Entry} {l : List Token} (h : entry o l) :
    definition (o.map Prod.snd) l := by
  obtain ⟨d, l, m, hd, ⟨e, m, k, he, ⟨o, k, _, ho, ⟨rfl, rfl⟩, rfl⟩, rfl⟩, rfl⟩ := h
  rw [List.append_nil, Option.map_map]
  exact ⟨d, l, _, hd, ⟨e, m, k, he, by rwa [Function.comp_def, Option.map_id'], rfl⟩, rfl⟩

lemma exists_entry {o : Option Definition} {l : List Token} (h : definition o l) :
    ∃ w, entry w l ∧ w.map Prod.snd = o := by
  obtain ⟨d, l, m, hd, ⟨e, m, k, he, ho, rfl⟩, rfl⟩ := h
  refine ⟨o.map (e.isSome, ·), ⟨d, l, _, hd, ⟨e, m, k, he, ⟨o, k, [], ho, ⟨rfl, rfl⟩, ?_⟩, rfl⟩,
    rfl⟩, ?_⟩
  · rw [List.append_nil]
  · rw [Option.map_map]
    exact Option.map_id'

lemma many_definition_iff {os : List (Option Definition)} {ts : List Token} :
    Many definition os ts ↔ ∃ ws, Many entry ws ts ∧ ws.map (Option.map Prod.snd) = os := by
  constructor
  · intro derived
    induction derived with
    | nil => exact ⟨[], .nil, rfl⟩
    | cons first _ ih =>
      obtain ⟨w, one, rfl⟩ := exists_entry first
      obtain ⟨ws, others, rfl⟩ := ih
      exact ⟨w :: ws, .cons one others, rfl⟩
  · rintro ⟨ws, derived, rfl⟩
    induction derived with
    | nil => exact .nil
    | cons first _ ih => exact .cons (definition_of_entry first) ih

/-- Whatever is read from a text is written in it, with marks. -/
lemma document_eq_ok_iff_written {text : List Char} {ds : List Definition} :
    GraphQl.document text = .ok ds ↔ ∃ es, Written text es ∧ es.map Prod.snd = ds := by
  rw [document_eq_ok_iff]
  constructor
  · rintro ⟨ts, os, found, derived, rfl⟩
    obtain ⟨ws, marked, rfl⟩ := many_definition_iff.1 derived
    exact ⟨ws.reduceOption, ⟨ts, ws, found, marked, rfl⟩, (List.reduceOption_map).symm⟩
  · rintro ⟨_, ⟨ts, ws, found, marked, rfl⟩, rfl⟩
    exact ⟨ts, _, found, many_definition_iff.2 ⟨ws, marked, rfl⟩, (List.reduceOption_map).symm⟩

/-- Reads a definition with its mark. -/
def readEntry (last : Nat) : Reader (Option Entry) := fun ts => do
  let (d, ts) ← describe ts
  let (e, ts) ← readExtend last ts
  let (o, ts) ← readDescribed d e last ts
  pure (o.map (e.isSome, ·), ts)

lemma reads_readEntry (last : Nat) : Reads (readEntry last) entry definitionBars := by
  refine .described (fun d => .bind (reads_readExtend last) (fun e => ?_) fun e => ?_) fun d => ?_
  · exact .last (reads_readDescribed d e last) (List.Subset.refl _) fun _ _ => rfl
  · exact .last (.keyed (by simp))
  · rintro v _ ⟨e, l, m, hl | hl, hm, rfl⟩
    · obtain ⟨n, line, l, rfl⟩ := (named_placedWord "extend").andThen e l hl
      exact ⟨n, line, l ++ m, rfl⟩
    · obtain ⟨-, rfl⟩ := hl
      exact (named_keyed _).andThen v m hm

lemma many_cons_of_readEntry (last : Nat) {o : Option Entry} {os : List (Option Entry)}
    {ts rest : List Token} (others : Many entry os rest)
    (first : readEntry last ts = .ok (o, rest)) : Many entry (o :: os) ts := by
  obtain ⟨l, here, rfl⟩ := (reads_readEntry last).sound first
  exact .cons here others

/-! ## Types in several places -/

/-- The names of what a definition consists of. -/
def Definition.parts (d : Definition) : List String := d.fields.map Field.name ++ d.values

/-- The kinds of types that have parts. -/
inductive PartedKind where
  | fields (kind : ObjectKind)
  | values
  deriving DecidableEq

def Definition.partedKind? : Definition → Option PartedKind
  | .object kind _ _ _ _ _ => some (.fields kind)
  | .enum _ _ _ => some .values
  | _ => none

/-- Two definitions without a part of the same name. -/
def PartsApart (e f : Entry) : Prop := e.2.parts.Disjoint f.2.parts

instance : Std.Symm PartsApart := ⟨fun _ _ apart => List.Disjoint.symm apart⟩

/-- The entries of a name. -/
def named (name : String) (es : List Entry) : List Entry := es.filter fun e => e.2.name? = some name

/-- A type that is no root and is written once in full, as `base`, and otherwise in extensions of
the same kind with parts of their own, in whatever order. -/
structure Extended (roots : Roots) (name : String) (base : Definition) (own : List Entry) :
    Prop where
  noRoot : roots.lookup name = none
  base : own.filter (fun e => !e.1) = [(false, base)]
  kind : ∃ k, ∀ e ∈ own, e.2.partedKind? = some k
  fresh : own.Pairwise PartsApart

/-- A schema with the description of one definition and the parts of all. -/
structure Gathers (scalars : List String) (base : Definition) (own : List Entry) (x : Schema) :
    Prop where
  description : x.description = nonEmpty base.description?
  properties : ∀ k, x.properties.get? k = own.findSome? fun e => e.2.property? scalars k
  values : x.enumValues.Perm (own.flatMap fun e => e.2.values)

/-- What comes first has the description, and what comes behind it either adds fields or has nothing
to add. -/
def InOrder (base : Definition) (own : List Entry) : Prop :=
  ∃ first rest, own = first :: rest ∧
    nonEmpty first.2.description? = nonEmpty base.description? ∧
    ∀ e ∈ rest, e.2.adds = true ∨ e.2.parts = []

/-! ## Schemas -/

variable {roots : Roots} {scalars : List String} {name : String}

/-- What the definitions of a name bring. -/
lemma brought_eq {es : List Entry} (schemas : ∀ e ∈ named name es, e.2.isSchema roots = true) :
    brought roots scalars name (es.map Prod.snd) =
      (named name es).map fun e => (e.2.adds, e.2.toSchema scalars name) := by
  rw [brought, List.filterMap_map, named, ← List.filterMap_eq_map, List.filterMap_filter]
  refine List.filterMap_congr fun e he => ?_
  rw [Function.comp_apply, Definition.brings?]
  by_cases here : e.2.name? = some name
  · have schema := schemas e (List.mem_filter.2 ⟨he, decide_eq_true here⟩)
    simp [here, schema]
  · simp [here]

/-- A definition with parts that is no root stands for a schema. -/
lemma isSchema_of_parted {d : Definition} {k : PartedKind} (noRoot : roots.lookup name = none)
    (named : d.name? = some name) (parted : d.partedKind? = some k) : d.isSchema roots = true := by
  cases d with
  | object kind n description fs extension line =>
    obtain rfl := Option.some.inj named
    rw [Definition.isSchema, Definition.rootVerb?, noRoot, ite_self]
    rfl
  | enum => rfl
  | union | scalar | roots => cases parted

/-- The property of a type in several places. -/
lemma get?_assembled (first : Entry) (rest : List Entry) (k : String) :
    ((rest.map fun e => (e.2.adds, e.2.toSchema scalars name)).foldl merged
      (first.2.toSchema scalars name)).properties.get? k =
      ((rest.filter fun e => e.2.adds).reverse ++ [first]).findSome? fun e =>
        e.2.property? scalars k := by
  rw [get?_foldl_merged, List.filter_map, ← List.map_reverse, List.findSome?_map,
    List.findSome?_append, get?_toSchema]
  simp only [Function.comp_def, get?_toSchema, List.findSome?_singleton]

/-! ## Parts of their own -/

section Apart

variable {α β : Type} {f : α → Option β} {l l' : List α}

/-- What a single member of a list gives is found wherever the member stands. -/
lemma findSome?_eq_of_mem (apart : l.Pairwise fun a b => f a = none ∨ f b = none) {a : α} {b : β}
    (ha : a ∈ l) (gives : f a = some b) : l.findSome? f = some b := by
  induction l with
  | nil => cases ha
  | cons c l ih =>
    obtain ⟨first, others⟩ := List.pairwise_cons.1 apart
    rw [List.findSome?_cons]
    rcases List.mem_cons.1 ha with rfl | ha
    · rw [gives]
    · have silent : f c = none := (first a ha).resolve_right (by simp [gives])
      rw [silent]
      exact ih others ha

lemma findSome?_congr_of_apart (apart : l.Pairwise fun a b => f a = none ∨ f b = none)
    (same : ∀ a, f a ≠ none → (a ∈ l ↔ a ∈ l')) : l.findSome? f = l'.findSome? f := by
  cases found : l'.findSome? f with
  | none =>
    rw [List.findSome?_eq_none_iff] at found ⊢
    intro a ha
    by_contra gives
    exact gives (found a ((same a gives).1 ha))
  | some b =>
    obtain ⟨a, ha, gives⟩ := List.exists_of_findSome?_eq_some found
    exact findSome?_eq_of_mem apart ((same a (by simp [gives])).2 ha) gives

end Apart

lemma mem_parts_of_property? {d : Definition} {k : String} {p : Property}
    (found : d.property? scalars k = some p) : k ∈ d.parts := by
  obtain ⟨f, hf, here, -⟩ := exists_field_of_property? found
  exact List.mem_append_left _ (List.mem_map.2 ⟨f, hf, here⟩)

/-- Definitions with parts of their own give different properties. -/
lemma apart_of_fresh {own : List Entry}
    (fresh : own.Pairwise PartsApart) (k : String) :
    own.Pairwise fun e f => e.2.property? scalars k = none ∨ f.2.property? scalars k = none := by
  refine fresh.imp fun {e f} apart => ?_
  by_contra both
  obtain ⟨one, other⟩ := not_or.1 both
  obtain ⟨p, hp⟩ := Option.ne_none_iff_exists'.1 one
  obtain ⟨q, hq⟩ := Option.ne_none_iff_exists'.1 other
  exact apart (mem_parts_of_property? hp) (mem_parts_of_property? hq)

lemma values_of_adds {d : Definition} (adds : d.adds = true) : d.values = [] := by
  cases d with
  | object => rfl
  | enum | union | scalar | roots => cases adds

/-! ## Documents -/

/-- Definitions of a name that are no roots and have parts come to what the first of them says, with
the fields of those that add some. -/
lemma assembled_eq {es : List Entry}
    (schemas : ∀ e ∈ named name es, e.2.isSchema roots = true) {first : Entry} {rest : List Entry}
    (own : named name es = first :: rest) :
    ∃ x, assembled (brought roots scalars name (es.map Prod.snd)) = some x ∧
      x.description = nonEmpty first.2.description? ∧ x.enumValues = first.2.values ∧
      ∀ k, x.properties.get? k = ((rest.filter fun e => e.2.adds).reverse ++ [first]).findSome?
        fun e => e.2.property? scalars k := by
  rw [brought_eq schemas, own]
  obtain ⟨properties, same⟩ := foldl_merged_eq (first.2.toSchema scalars name)
    (rest.map fun e => (e.2.adds, e.2.toSchema scalars name))
  refine ⟨_, rfl, ?_, ?_, get?_assembled first rest⟩
  · rw [same]
    rfl
  · rw [same]
    rfl

variable {base : Definition} {first : Entry} {rest : List Entry} {x : Schema}

/-- In order nothing is lost. -/
lemma gathers_of_inOrder (fresh : (first :: rest).Pairwise PartsApart)
    (description : x.description = nonEmpty first.2.description?)
    (values : x.enumValues = first.2.values)
    (properties : ∀ k, x.properties.get? k =
      ((rest.filter fun e => e.2.adds).reverse ++ [first]).findSome? fun e =>
        e.2.property? scalars k)
    (same : nonEmpty first.2.description? = nonEmpty base.description?)
    (kept : ∀ e ∈ rest, e.2.adds = true ∨ e.2.parts = []) :
    Gathers scalars base (first :: rest) x where
  description := description.trans same
  properties := by
    intro k
    rw [properties]
    refine (findSome?_congr_of_apart (apart_of_fresh fresh k) fun e gives => ?_).symm
    obtain ⟨p, hp⟩ := Option.ne_none_iff_exists'.1 gives
    have part := mem_parts_of_property? hp
    rw [List.mem_cons, List.mem_append, List.mem_reverse, List.mem_filter, List.mem_singleton]
    constructor
    · rintro (here | behind)
      · exact .inr here
      · have adds := (kept e behind).resolve_right (List.ne_nil_of_mem part)
        exact .inl ⟨behind, adds⟩
    · exact fun found => found.symm.imp_right And.left
  values := by
    have silent : rest.flatMap (fun e => e.2.values) = [] := by
      refine List.flatMap_eq_nil_iff.2 fun e he => ?_
      rcases kept e he with adds | nothing
      · exact values_of_adds adds
      · exact (List.append_eq_nil_iff.1 nothing).2
    rw [values, List.flatMap_cons, silent, List.append_nil]

/-- What is not added is missed, if it has any part. -/
lemma inOrder_of_gathers
    (fresh : (first :: rest).Pairwise PartsApart)
    (description : x.description = nonEmpty first.2.description?)
    (values : x.enumValues = first.2.values)
    (properties : ∀ k, x.properties.get? k =
      ((rest.filter fun e => e.2.adds).reverse ++ [first]).findSome? fun e =>
        e.2.property? scalars k)
    (gathers : Gathers scalars base (first :: rest) x) :
    InOrder base (first :: rest) := by
  refine ⟨first, rest, rfl, description.symm.trans gathers.description, fun e he => ?_⟩
  by_contra lost
  obtain ⟨dropped, parts⟩ := not_or.1 lost
  obtain ⟨n, part⟩ := List.exists_mem_of_ne_nil _ parts
  rcases List.mem_append.1 part with field | value
  · obtain ⟨p, hp⟩ := exists_property? scalars field
    have claimed : x.properties.get? n = some p := by
      rw [gathers.properties]
      exact findSome?_eq_of_mem (apart_of_fresh fresh n) (List.mem_cons_of_mem first he) hp
    rw [properties] at claimed
    obtain ⟨f, hf, gives⟩ := List.exists_of_findSome?_eq_some claimed
    have other := mem_parts_of_property? gives
    obtain ⟨front, behind⟩ := List.pairwise_cons.1 fresh
    rcases List.mem_append.1 hf with added | here
    · obtain ⟨hf, adds⟩ := List.mem_filter.1 (List.mem_reverse.1 added)
      have apart : e ≠ f := by
        rintro rfl
        exact dropped adds
      exact behind.forall he hf apart part other
    · obtain rfl := List.mem_singleton.1 here
      exact front e he other part
  · have listed := gathers.values.length_eq
    rw [values, List.flatMap_cons, List.length_append] at listed
    have none : rest.flatMap (fun e => e.2.values) = [] := List.length_eq_zero_iff.1 (by omega)
    exact List.ne_nil_of_mem value (List.flatMap_eq_nil_iff.1 none e he)

/-- What several definitions say does not depend on their order. -/
lemma Gathers.perm {own own' : List Entry} (h : Gathers scalars base own x) (perm : own'.Perm own)
    (fresh : own.Pairwise PartsApart) :
    Gathers scalars base own' x where
  description := h.description
  properties := by
    intro k
    rw [h.properties]
    exact findSome?_congr_of_apart (apart_of_fresh fresh k) fun e _ => perm.symm.mem_iff
  values := h.values.trans (perm.symm.flatMap_right _)

/-- **When a type that is written in several places is read as a whole.**  Every document is written
with marks.  For a name that is no root and is defined once in full and otherwise in extensions of
the same kind with parts of their own, there is a schema.  It gathers the parts of all its
definitions, in whatever order they are taken, with the description of the full one, exactly if what
comes first has that description and whatever comes behind it is a marked object or has no parts. -/
theorem extensions_gathered_iff {text : List Char} {ds : List Definition}
    (spelled : GraphQl.document text = .ok ds) (s : Settings) :
    (∃ es, Written text es) ∧ ∃ a ws, read text s = .success a ws ∧
      ∀ es, Written text es → ∀ name base, Extended (rootsOf ds) name base (named name es) →
        ∃ x, a.schemas.get? name = some x ∧ ∀ own, own.Perm (named name es) →
          (Gathers (scalarsOf ds) base own x ↔ InOrder base (named name es)) := by
  obtain ⟨a, ws, found, contents⟩ := contents_of_document spelled s
  obtain ⟨es, written, -⟩ := document_eq_ok_iff_written.1 spelled
  refine ⟨⟨es, written⟩, a, ws, found, fun es written name base extended => ?_⟩
  have again := document_eq_ok_iff_written.2 ⟨es, written, rfl⟩
  obtain rfl : es.map Prod.snd = ds := Except.ok.inj (again.symm.trans spelled)
  obtain ⟨k, kind⟩ := extended.kind
  obtain ⟨first, rest, own⟩ : ∃ first rest, named name es = first :: rest := by
    refine List.exists_cons_of_ne_nil fun none => ?_
    have base := extended.base
    rw [none] at base
    cases base
  have schemas : ∀ e ∈ named name es, e.2.isSchema (rootsOf (es.map Prod.snd)) = true := by
    intro e he
    have here := of_decide_eq_true (List.mem_filter.1 he).2
    exact isSchema_of_parted extended.noRoot here (kind e he)
  obtain ⟨x, assembled, description, values, properties⟩ := assembled_eq schemas own
  have fresh := extended.fresh
  rw [own] at fresh ⊢
  refine ⟨x, (contents.schemas name).trans assembled, fun own' perm => ⟨fun gathers => ?_, ?_⟩⟩
  · have fresh' : own'.Pairwise PartsApart :=
      (perm.pairwise_iff fun apart => List.Disjoint.symm apart).2 fresh
    exact inOrder_of_gathers fresh description values properties (gathers.perm perm.symm fresh')
  · rintro ⟨_, _, same, described, kept⟩
    cases same
    exact (gathers_of_inOrder fresh description values properties described kept).perm perm fresh

/-- A type with an extension behind it. -/
def order : List Char :=
  "\"An order\" type Order { id: ID! }\nextend type Order { total: Float }".toList

def orderBase : Definition :=
  .object .type "Order" (some "An order") [⟨none, "id", [], .nonNull (.named "ID"), false, 1⟩]
    false 1

def orderExtension : Definition :=
  .object .type "Order" none [⟨none, "total", [], .named "Float", false, 2⟩] true 2

def orderTokens : List Token :=
  [⟨.text "An order", 1⟩, ⟨.name "type", 1⟩, ⟨.name "Order", 1⟩, ⟨.punct '\x7b', 1⟩,
    ⟨.name "id", 1⟩, ⟨.punct ':', 1⟩, ⟨.name "ID", 1⟩, ⟨.punct '!', 1⟩, ⟨.punct '\x7d', 1⟩,
    ⟨.name "extend", 2⟩, ⟨.name "type", 2⟩, ⟨.name "Order", 2⟩, ⟨.punct '\x7b', 2⟩,
    ⟨.name "total", 2⟩, ⟨.punct ':', 2⟩, ⟨.name "Float", 2⟩, ⟨.punct '\x7d', 2⟩]

lemma written_order : Written order [(false, orderBase), (true, orderExtension)] := by
  have found : tokens order = .ok orderTokens := by decide +kernel
  have second : Many entry [some (true, orderExtension)] (orderTokens.drop 9) :=
    many_cons_of_readEntry 1 .nil rfl
  have both : Many entry [some (false, orderBase), some (true, orderExtension)] orderTokens :=
    many_cons_of_readEntry 1 second rfl
  exact ⟨orderTokens, _, found, both, rfl⟩

theorem extensions_gathered_order : Written order [(false, orderBase), (true, orderExtension)] ∧
    ∃ a ws x, read order (.ofConfig none) = .success a ws ∧ a.schemas.get? "Order" = some x ∧
      Gathers [] orderBase [(true, orderExtension), (false, orderBase)] x := by
  have spelled : GraphQl.document order = .ok [orderBase, orderExtension] :=
    document_eq_ok_iff_written.2 ⟨_, written_order, rfl⟩
  obtain ⟨-, a, ws, found, each⟩ := extensions_gathered_iff spelled (.ofConfig none)
  have own : named "Order" [(false, orderBase), (true, orderExtension)] =
      [(false, orderBase), (true, orderExtension)] := by decide
  have extended : Extended (rootsOf [orderBase, orderExtension]) "Order" orderBase
      (named "Order" [(false, orderBase), (true, orderExtension)]) := by
    rw [own]
    refine ⟨by decide, by decide, ⟨.fields .type, by decide⟩, List.pairwise_pair.2 ?_⟩
    intro n hn hm
    obtain rfl := List.mem_singleton.1 hn
    exact absurd hm (by decide)
  obtain ⟨x, schema, gathers⟩ := each _ written_order "Order" orderBase extended
  refine ⟨written_order, a, ws, x, found, schema, (gathers _ ?_).2 ?_⟩
  · rw [own]
    exact List.Perm.swap _ _ _
  · rw [own]
    exact ⟨_, _, rfl, rfl, by decide⟩

/-- An enumeration with an extension behind it. -/
def status : List Char := "enum Status { OPEN }\nextend enum Status { DONE }".toList

def statusEntries : List Entry :=
  [(false, .enum "Status" none ["OPEN"]), (true, .enum "Status" none ["DONE"])]

def statusTokens : List Token :=
  [⟨.name "enum", 1⟩, ⟨.name "Status", 1⟩, ⟨.punct '\x7b', 1⟩, ⟨.name "OPEN", 1⟩,
    ⟨.punct '\x7d', 1⟩, ⟨.name "extend", 2⟩, ⟨.name "enum", 2⟩, ⟨.name "Status", 2⟩,
    ⟨.punct '\x7b', 2⟩, ⟨.name "DONE", 2⟩, ⟨.punct '\x7d', 2⟩]

lemma written_status : Written status statusEntries := by
  have found : tokens status = .ok statusTokens := by decide +kernel
  have second : Many entry [some (true, .enum "Status" none ["DONE"])] (statusTokens.drop 5) :=
    many_cons_of_readEntry 1 .nil rfl
  have both : Many entry (statusEntries.map some) statusTokens :=
    many_cons_of_readEntry 1 second rfl
  exact ⟨statusTokens, _, found, both, rfl⟩

/-- The value that the extension adds is lost. -/
theorem not_gathers_of_extendedEnum : Written status statusEntries ∧
    Extended (rootsOf (statusEntries.map Prod.snd)) "Status" (.enum "Status" none ["OPEN"])
      (named "Status" statusEntries) ∧
    ∃ a ws x, read status (.ofConfig none) = .success a ws ∧ a.schemas.get? "Status" = some x ∧
      ¬Gathers [] (.enum "Status" none ["OPEN"]) (named "Status" statusEntries) x := by
  have spelled : GraphQl.document status = .ok (statusEntries.map Prod.snd) :=
    document_eq_ok_iff_written.2 ⟨_, written_status, rfl⟩
  have own : named "Status" statusEntries = statusEntries := by decide
  have extended : Extended (rootsOf (statusEntries.map Prod.snd)) "Status"
      (.enum "Status" none ["OPEN"]) (named "Status" statusEntries) := by
    rw [own]
    refine ⟨by decide, by decide, ⟨.values, by decide⟩, List.pairwise_pair.2 ?_⟩
    intro n hn hm
    obtain rfl := List.mem_singleton.1 hn
    exact absurd hm (by decide)
  obtain ⟨a, ws, found, contents⟩ := contents_of_document spelled (.ofConfig none)
  refine ⟨written_status, extended, a, ws, _, found, contents.schemas "Status", fun gathers => ?_⟩
  have lost := gathers.values.length_eq
  rw [own] at lost
  exact absurd lost (by decide)

end ApiCanon.GraphQl
