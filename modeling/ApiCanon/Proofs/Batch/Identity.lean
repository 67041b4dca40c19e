import ApiCanon.Batch.Basic
import ApiCanon.Proofs.Collection.KeyedList
import ApiCanon.Proofs.Text.Search
import ApiCanon.Proofs.Text.Utf8

/-!
# Identifiers of batches

A batch is frozen exactly if an item may be under way at all and no identifier is blank or there
twice (`exists_make_iff`).

The identifier of a batch is derived from its fingerprint, in which every item begins on a line of
its own.  Where identifiers of contents do not collide it tells the lines of the fingerprint
(`fingerprint_eq_iff`), but not which of them belong to one item: an identifier may have line feeds.
Together with the line feeds of each item the lines tell all kinds and identifiers
(`identities_eq_iff`), and by themselves if no identifier has a line that poses as the beginning of
an item (`identities_eq_iff_of_plain`).  Otherwise they do not: whatever is in a batch of several
items, some batch of a single item has the same lines (`exists_joined`).
-/

namespace ApiCanon

/-- No two of the contents have one identifier. -/
def ToldApart (name : String) (contents : List Bytes) : Prop :=
  ∀ a ∈ contents, ∀ b ∈ contents, contentId name a = contentId name b → a = b

lemma toldApart_pair_iff {name : String} {a b : Bytes} :
    ToldApart name [a, b] ↔ (contentId name a = contentId name b → a = b) := by
  constructor
  · intro apart
    exact apart a List.mem_cons_self b (List.mem_cons_of_mem a List.mem_cons_self)
  · intro told c hc d hd same
    rw [List.mem_pair] at hc hd
    rcases hc with rfl | rfl <;> rcases hd with rfl | rfl
    · rfl
    · exact told same
    · exact (told same.symm).symm
    · rfl

namespace Batch

/-! ## The check -/

/-- What may be frozen. -/
structure Admitted (items : List BatchItem) (options : BatchOptions) : Prop where
  concurrent : 1 ≤ options.maxConcurrency
  named : ∀ i ∈ items, Text.isBlankText i.id = false
  distinct : (items.map BatchItem.id).Nodup

lemma itemFault?_eq_none_iff (seen : List String) (index : Nat) (items : List BatchItem) :
    itemFault? seen index items = none ↔ (∀ i ∈ items, Text.isBlankText i.id = false) ∧
      (items.map BatchItem.id).Nodup ∧ ∀ i ∈ items, i.id ∉ seen := by
  induction items generalizing seen index with
  | nil => simp [itemFault?]
  | cons i items ih =>
    rw [itemFault?]
    by_cases blank : Text.isBlankText i.id = true
    · simp [blank]
    by_cases known : i.id ∈ seen
    · simp [blank, known]
    rw [if_neg blank, if_neg (by simpa using known), ih, nodup_fresh_cons_iff,
      List.forall_mem_cons]
    simp only [blank, known, true_and, not_false_eq_true]

/-- The bytes from which the identifier of a batch is derived. -/
def content (items : List BatchItem) : Bytes := Bytes.ofString (fingerprint items)

/-- The check lets the items pass as they are. -/
theorem make_eq_ok_iff {items : List BatchItem} {options : BatchOptions} {b : Batch} :
    make items options = .ok b ↔
      Admitted items options ∧ b = ⟨contentId "batch" (content items), items, options⟩ := by
  have passes : Admitted items options ↔
      options.maxConcurrency ≠ 0 ∧ itemFault? [] 0 items = none := by
    rw [itemFault?_eq_none_iff]
    constructor
    · intro h
      exact ⟨Nat.one_le_iff_ne_zero.1 h.concurrent, h.named, h.distinct, by simp⟩
    · rintro ⟨concurrent, named, distinct, -⟩
      exact ⟨Nat.one_le_iff_ne_zero.2 concurrent, named, distinct⟩
  rw [make, passes, content]
  split_ifs with idle
  · simp [idle]
  · cases itemFault? [] 0 items with
    | some reason => simp
    | none => simp [idle, eq_comm]

theorem exists_make_iff {items : List BatchItem} {options : BatchOptions} :
    (∃ b, make items options = .ok b) ↔ Admitted items options := by
  simp only [make_eq_ok_iff, exists_and_left, exists_eq, and_true]

/-! ## Lines of a fingerprint -/

/-- The kinds and the identifiers of the items. -/
def identities (items : List BatchItem) : List (ItemKind × String) :=
  items.map fun i => (i.kind, i.id)

/-- What the fingerprint has for an item. -/
def entry (p : ItemKind × String) : List Char := p.1.text.toList ++ ':' :: p.2.toList

/-- The lines that the fingerprint has for an item. -/
def entryLines (p : ItemKind × String) : List (List Char) := (entry p).splitOn '\n'

/-- The lines of the fingerprint; none without an item. -/
def lines (items : List BatchItem) : List (List Char) := (identities items).flatMap entryLines

/-- The numbers of line feeds in the identifiers. -/
def lineFeeds (items : List BatchItem) : List Nat := items.map fun i => Text.lineFeeds i.id.toList

lemma toList_fingerprint (items : List BatchItem) :
    (fingerprint items).toList = ['\n'].intercalate ((identities items).map entry) := by
  rw [fingerprint, String.toList_intercalate, identities, List.map_map, List.map_map]
  congr 1
  refine List.map_congr_left fun i _ => ?_
  simp [entry, String.toList_append]

lemma splitOn_fingerprint {items : List BatchItem} (some : items ≠ []) :
    (fingerprint items).toList.splitOn '\n' = lines items := by
  rw [toList_fingerprint, Text.splitOn_intercalate_eq_flatMap, List.flatMap_map]
  · rfl
  · simpa [identities] using some

lemma intercalate_lines (items : List BatchItem) :
    ['\n'].intercalate (lines items) = (fingerprint items).toList := by
  cases items with
  | nil => rfl
  | cons i items => rw [← splitOn_fingerprint (List.cons_ne_nil i items), List.intercalate_splitOn]

lemma fingerprint_ne_empty (i : BatchItem) (items : List BatchItem) :
    fingerprint (i :: items) ≠ "" := by
  intro empty
  have chars := congrArg String.toList empty
  rw [toList_fingerprint, identities, List.map_cons, List.map_cons] at chars
  cases items <;> simp [entry, List.intercalate_cons_cons] at chars

/-- **A fingerprint tells its lines, and nothing else.** -/
theorem fingerprint_eq_iff {items items' : List BatchItem} :
    fingerprint items = fingerprint items' ↔ lines items = lines items' := by
  constructor
  · intro same
    cases items with
    | nil =>
      cases items' with
      | nil => rfl
      | cons j items' => exact absurd same.symm (fingerprint_ne_empty j items')
    | cons i items =>
      cases items' with
      | nil => exact absurd same (fingerprint_ne_empty i items)
      | cons j items' =>
        rw [← splitOn_fingerprint (List.cons_ne_nil i items), same,
          splitOn_fingerprint (List.cons_ne_nil j items')]
  · intro same
    apply String.toList_injective
    rw [← intercalate_lines, same, intercalate_lines]

/-! ## Items of a fingerprint -/

lemma not_mem_text (k : ItemKind) : '\n' ∉ k.text.toList ∧ ':' ∉ k.text.toList := by
  cases k <;> decide

lemma text_injective {k l : ItemKind} (h : k.text = l.text) : k = l := by
  cases k <;> cases l <;> simp_all [ItemKind.text]

/-- A kind ends at the first colon. -/
lemma entry_injective : Function.Injective entry := by
  intro p q same
  have split : ∀ r : ItemKind × String,
      Text.splitAtFirst? (· == ':') (entry r) = some (r.1.text.toList, r.2.toList) :=
    fun r => Text.splitAtFirst?_separator (not_mem_text r.1).2 _
  have parts := (split p).symm.trans ((congrArg _ same).trans (split q))
  obtain ⟨kind, id⟩ := Prod.mk.inj (Option.some.inj parts)
  exact Prod.ext (text_injective (String.toList_injective kind)) (String.toList_injective id)

lemma entryLines_injective : Function.Injective entryLines := by
  intro p q same
  have joined : ∀ r, ['\n'].intercalate (entryLines r) = entry r := fun r =>
    List.intercalate_splitOn '\n'
  exact entry_injective ((joined p).symm.trans ((congrArg _ same).trans (joined q)))

/-- The first line of an item begins with its kind, and the others are those of the identifier. -/
lemma entryLines_eq (p : ItemKind × String) :
    entryLines p = (p.2.toList.splitOn '\n').modifyHead (p.1.text.toList ++ [':'] ++ ·) := by
  have one : '\n' ∉ p.1.text.toList ++ [':'] := by
    simpa using (not_mem_text p.1).1
  rw [entryLines, entry, ← Text.splitOn_append_of_not_mem one, List.append_assoc,
    List.singleton_append]

lemma map_length_entryLines (items : List BatchItem) :
    (identities items).map (fun p => (entryLines p).length) = (lineFeeds items).map (· + 1) := by
  rw [identities, lineFeeds, List.map_map, List.map_map]
  refine List.map_congr_left fun i _ => ?_
  rw [Function.comp_apply, entryLines_eq, List.length_modifyHead, Text.length_splitOn]
  rfl

/-- **The lines and the line feeds tell the items.** -/
theorem identities_eq_iff {items items' : List BatchItem} :
    identities items = identities items' ↔
      lines items = lines items' ∧ lineFeeds items = lineFeeds items' := by
  have succ : Function.Injective (List.map (· + 1)) :=
    List.map_injective_iff.2 fun _ _ same => Nat.succ.inj same
  have counts : lineFeeds items = lineFeeds items' ↔
      (identities items).map (fun p => (entryLines p).length) =
        (identities items').map fun p => (entryLines p).length := by
    rw [map_length_entryLines, map_length_entryLines, succ.eq_iff]
  rw [counts, ← (List.map_injective_iff.2 entryLines_injective).eq_iff, List.eq_iff_flatten_eq,
    List.map_map, List.map_map, ← List.flatMap_def, ← List.flatMap_def]
  rfl

/-! ## Lines that pose as items -/

/-- A line reads like the beginning of an item. -/
def Begins (line : List Char) : Prop := ∃ k : ItemKind, k.text.toList ++ [':'] <+: line

/-- An identifier has, behind a line feed, what reads like the beginning of an item. -/
def Poses (id : String) : Prop :=
  ∃ k : ItemKind, '\n' :: (k.text.toList ++ [':']) <:+: id.toList

/-- In the lines of an item the first one begins it, and no other one reads like that. -/
lemma entryLines_begin {p : ItemKind × String} (plain : ¬Poses p.2) :
    ∃ first others, entryLines p = first :: others ∧ Begins first ∧ ∀ l ∈ others, ¬Begins l := by
  obtain ⟨first, others, pieces⟩ := List.exists_cons_of_ne_nil
    (List.splitOn_ne_nil '\n' p.2.toList)
  refine ⟨_, others, by rw [entryLines_eq, pieces]; rfl, ⟨p.1, first, rfl⟩, ?_⟩
  rintro l hl ⟨k, begins⟩
  refine plain ⟨k, ?_⟩
  have feed : '\n' :: l <:+: p.2.toList := Text.infix_of_mem_splitOn pieces hl
  exact ((List.prefix_cons_inj '\n').2 begins).isInfix.trans feed

/-- Each part begins with a member of a kind that it has nowhere else. -/
def Headed {α : Type} (P : α → Prop) (parts : List (List α)) : Prop :=
  ∀ l ∈ parts, ∃ first others, l = first :: others ∧ P first ∧ ∀ x ∈ others, ¬P x

/-- What belongs to no new part is empty. -/
lemma Headed.eq_nil_of_flatten_eq {α : Type} {P : α → Prop} {parts : List (List α)}
    (headed : Headed P parts) {a rest : List α} (whole : parts.flatten = a ++ rest)
    (none : ∀ x ∈ a, ¬P x) : a = [] := by
  cases parts with
  | nil => exact (List.append_eq_nil_iff.1 whole.symm).1
  | cons l parts =>
    obtain ⟨first, others, rfl, begins, -⟩ := headed l List.mem_cons_self
    cases a with
    | nil => rfl
    | cons x a =>
      obtain ⟨rfl, -⟩ := List.cons.inj whole
      exact absurd begins (none first List.mem_cons_self)

/-- Such parts can be told from their members. -/
lemma Headed.flatten_inj {α : Type} {P : α → Prop} {parts parts' : List (List α)}
    (headed : Headed P parts) (headed' : Headed P parts')
    (same : parts.flatten = parts'.flatten) : parts = parts' := by
  induction parts generalizing parts' with
  | nil =>
    cases parts' with
    | nil => rfl
    | cons m parts' =>
      obtain ⟨first, others, rfl, -⟩ := headed' m List.mem_cons_self
      cases same
  | cons l parts ih =>
    obtain ⟨first, others, rfl, -, plain⟩ := headed l List.mem_cons_self
    cases parts' with
    | nil => cases same
    | cons m parts' =>
      obtain ⟨first', others', rfl, -, plain'⟩ := headed' m List.mem_cons_self
      have later : Headed P parts := (List.forall_mem_cons.1 headed).2
      have later' : Headed P parts' := (List.forall_mem_cons.1 headed').2
      obtain rfl : first = first' := (List.cons.inj same).1
      have behind : others ++ parts.flatten = others' ++ parts'.flatten := (List.cons.inj same).2
      -- The part that is longer would reach into the next one of the other list.
      obtain ⟨a, rfl, rest⟩ | ⟨a, rfl, rest⟩ := List.append_eq_append_iff.1 behind
      · obtain rfl := later.eq_nil_of_flatten_eq rest fun x hx =>
          plain' x (List.mem_append_right _ hx)
        rw [ih later later' rest, List.append_nil]
      · obtain rfl := later'.eq_nil_of_flatten_eq rest fun x hx =>
          plain x (List.mem_append_right _ hx)
        rw [ih later later' rest.symm, List.append_nil]

/-- **Without lines that pose as items the lines tell the items.** -/
theorem identities_eq_iff_of_plain {items items' : List BatchItem}
    (plain : ∀ i ∈ items ++ items', ¬Poses i.id) :
    lines items = lines items' ↔ identities items = identities items' := by
  refine ⟨fun same => ?_, fun same => (identities_eq_iff.1 same).1⟩
  have headed : ∀ l ⊆ items ++ items', Headed Begins ((identities l).map entryLines) := by
    intro l known ls hls
    rw [identities, List.map_map] at hls
    obtain ⟨i, hi, rfl⟩ := List.mem_map.1 hls
    exact entryLines_begin (plain i (known hi))
  refine List.map_injective_iff.2 entryLines_injective ?_
  exact (headed items (List.subset_append_left _ _)).flatten_inj
    (headed items' (List.subset_append_right _ _)) same

/-! ## Batches with one identifier -/

/-- Items can be joined into a single one with the lines of all. -/
lemma exists_joined {items : List BatchItem} {options : BatchOptions}
    (admitted : Admitted items options) (several : 2 ≤ items.length) :
    ∃ joined, Admitted [joined] options ∧ lines [joined] = lines items := by
  obtain ⟨i, j, items, rfl⟩ : ∃ i j rest, items = i :: j :: rest := by
    match items, several with
    | i :: j :: rest, _ => exact ⟨i, j, rest, rfl⟩
  refine ⟨{ i with id := i.id ++ "\n" ++ fingerprint (j :: items) },
    ⟨admitted.concurrent, ?_, List.nodup_singleton _⟩, ?_⟩
  · intro k hk
    obtain rfl := List.mem_singleton.1 hk
    have named := admitted.named i List.mem_cons_self
    rw [Text.isBlankText, Text.allBlank, List.all_eq_false] at named ⊢
    obtain ⟨c, hc, visible⟩ := named
    exact ⟨c, by simp [hc], visible⟩
  · rw [← fingerprint_eq_iff]
    apply String.toList_injective
    rw [toList_fingerprint, toList_fingerprint]
    simp [identities, entry, toList_fingerprint, List.intercalate_cons_cons]

lemma id_eq_iff {items items' : List BatchItem} {options options' : BatchOptions} {b b' : Batch}
    (made : make items options = .ok b) (made' : make items' options' = .ok b')
    (apart : ToldApart "batch" [content items, content items']) :
    b.id = b'.id ↔ lines items = lines items' := by
  obtain ⟨-, rfl⟩ := make_eq_ok_iff.1 made
  obtain ⟨-, rfl⟩ := make_eq_ok_iff.1 made'
  rw [← fingerprint_eq_iff]
  constructor
  · intro same
    exact Bytes.ofString_injective (toldApart_pair_iff.1 apart same)
  · intro same
    exact congrArg (fun text => contentId "batch" (Bytes.ofString text)) same

/-- **What the identifier of a batch tells.**  The check lets a batch pass, as it is, exactly if an
item may be under way and no identifier is blank or there twice.  Two batches have one identifier
exactly if their fingerprints have the same lines.  They have the same kinds and identifiers exactly
if, besides, their identifiers have the same line feeds, which follows if no line of an identifier
poses as an item; but a batch of several items always shares its identifier with another batch. -/
theorem identifier_tells (items : List BatchItem) (options : BatchOptions) :
    ((∃ b, make items options = .ok b) ↔ Admitted items options) ∧
      ∀ b, make items options = .ok b → b.items = items ∧ b.options = options ∧
        (∀ items' options' b', make items' options' = .ok b' →
          ToldApart "batch" [content items, content items'] →
          (b.id = b'.id ↔ lines items = lines items') ∧
          (identities items = identities items' ↔
            b.id = b'.id ∧ lineFeeds items = lineFeeds items') ∧
          ((∀ i ∈ items ++ items', ¬Poses i.id) →
            (b.id = b'.id ↔ identities items = identities items'))) ∧
        (2 ≤ items.length → ∃ joined b', make [joined] options = .ok b' ∧ b'.id = b.id ∧
          identities [joined] ≠ identities items) := by
  refine ⟨exists_make_iff, fun b made => ?_⟩
  obtain ⟨admitted, rfl⟩ := make_eq_ok_iff.1 made
  refine ⟨rfl, rfl, fun items' options' b' made' apart => ?_, fun several => ?_⟩
  · have same := id_eq_iff made made' apart
    refine ⟨same, ?_, fun plain => ?_⟩
    · rw [same]
      exact identities_eq_iff
    · rw [same]
      exact identities_eq_iff_of_plain plain
  · obtain ⟨joined, admitted', same⟩ := exists_joined admitted several
    refine ⟨joined, _, make_eq_ok_iff.2 ⟨admitted', rfl⟩, ?_, fun equal => ?_⟩
    · exact congrArg (fun text => contentId "batch" (Bytes.ofString text))
        (fingerprint_eq_iff.2 same)
    · have length := congrArg List.length equal
      rw [identities, identities, List.length_map, List.length_map, List.length_singleton] at length
      omega

/-- An item without a payload. -/
def bare (kind : ItemKind) (id : String) : BatchItem := ⟨id, kind, .null, none⟩

/-- One item of two lines, and two items of one line each. -/
theorem identifier_tells_twoLines :
    ∃ b b', make [bare .summarize "a\nb"] ⟨1, .abort, none⟩ = .ok b ∧
      make [bare .summarize "a", bare .enhance "c"] ⟨4, .carryOn, none⟩ = .ok b' ∧
      ToldApart "batch" [content [bare .summarize "a\nb"],
        content [bare .summarize "a", bare .enhance "c"]] ∧
      b.items = [bare .summarize "a\nb"] ∧ b.id ≠ b'.id := by
  have tells := identifier_tells [bare .summarize "a\nb"] ⟨1, .abort, none⟩
  obtain ⟨b, made⟩ := tells.1.2 ⟨by decide, by decide, by decide⟩
  obtain ⟨b', made'⟩ : ∃ b', make [bare .summarize "a", bare .enhance "c"] ⟨4, .carryOn, none⟩ =
      .ok b' := exists_make_iff.2 ⟨by decide, by decide, by decide⟩
  have apart : ToldApart "batch" [content [bare .summarize "a\nb"],
      content [bare .summarize "a", bare .enhance "c"]] := by
    refine toldApart_pair_iff.2 fun same => absurd same ?_
    decide +kernel
  obtain ⟨unchanged, -, told, -⟩ := tells.2 b made
  refine ⟨b, b', made, made', apart, unchanged, fun same => ?_⟩
  have lines := (told _ _ b' made' apart).1.1 same
  exact absurd lines (by decide)

/-- A line of an identifier that poses as an item: one identifier for two items and for one. -/
theorem same_identifier_of_posing :
    ∃ b b', make [bare .summarize "a", bare .summarize "b"] ⟨4, .carryOn, none⟩ = .ok b ∧
      make [bare .summarize "a\nsummarize:b"] ⟨4, .carryOn, none⟩ = .ok b' ∧
      ToldApart "batch" [content b.items, content b'.items] ∧ b.id = b'.id ∧
      identities b.items ≠ identities b'.items := by
  have equal : content [bare .summarize "a", bare .summarize "b"] =
      content [bare .summarize "a\nsummarize:b"] := rfl
  refine ⟨_, _, make_eq_ok_iff.2 ⟨⟨by decide, by decide, by decide⟩, rfl⟩,
    make_eq_ok_iff.2 ⟨⟨by decide, by decide, by decide⟩, rfl⟩, ?_, ?_, by decide⟩
  · exact toldApart_pair_iff.2 fun _ => equal
  · exact congrArg (contentId "batch") equal

end Batch

end ApiCanon
