import ApiCanon.Go.Annotation
import ApiCanon.Proofs.Text.Blank
import ApiCanon.Proofs.Text.Search
import Mathlib.Data.List.Basic

/-!
# Values in tags

A tag is written from entries, each a key and a value: the value stands between quotes behind its
key and a colon, and a blank stands between two entries.  The value of a key is looked for by the
text of the key with the colon and the quote.  That text ends at a quote, so it can only occur in
front of one: where a key ends like the one looked for, and where a value ends in the key and a
colon (`search?_following`).

So a key is found under its own entry unless an entry of either kind stands in front of it, and what
is found then is the value of the other key, or the name of the next one (`tagValue?_written`).
-/

namespace ApiCanon.Go

/-! ## Writing a tag -/

/-- An entry as it stands in a tag. -/
def entryText (p : List Char × List Char) : List Char := p.1 ++ ':' :: '"' :: (p.2 ++ ['"'])

/-- The tag with the given entries. -/
def written (ps : List (List Char × List Char)) : List Char :=
  '\x60' :: ([' '].intercalate (ps.map entryText) ++ ['\x60'])

/-- The entries behind another one. -/
def following (ps : List (List Char × List Char)) : List Char :=
  ps.flatMap fun p => ' ' :: entryText p

/-- The entries as they are read: a key in front loses its backquotes with the one that opens the
tag. -/
def stripped (ps : List (List Char × List Char)) : List (List Char × List Char) :=
  ps.modifyHead fun p => (p.1.dropWhile (· == '\x60'), p.2)

variable {k : List Char} {p : List Char × List Char} {ps : List (List Char × List Char)}

lemma entryText_eq_concat (p : List Char × List Char) :
    entryText p = (p.1 ++ ':' :: '"' :: p.2) ++ ['"'] := by
  rw [entryText, List.append_assoc, List.cons_append, List.cons_append]

lemma following_cons (p : List Char × List Char) (ps : List (List Char × List Char)) :
    following (p :: ps) = ' ' :: (entryText p ++ following ps) :=
  List.flatMap_cons

lemma intercalate_entries (p : List Char × List Char) (ps : List (List Char × List Char)) :
    [' '].intercalate ((p :: ps).map entryText) = entryText p ++ following ps := by
  induction ps generalizing p with
  | nil => simp [following]
  | cons q ps ih =>
    rw [List.map_cons, List.map_cons, List.intercalate_cons_cons, ← List.map_cons, ih,
      following_cons, List.append_assoc]
    rfl

/-- The last entry ends with a quote. -/
lemma getLast?_entries (p : List Char × List Char) (ps : List (List Char × List Char)) :
    (entryText p ++ following ps).getLast? = some '"' := by
  induction ps using List.reverseRecOn with
  | nil =>
    rw [following, List.flatMap_nil, List.append_nil, entryText_eq_concat, List.getLast?_concat]
  | append_singleton ps q _ =>
    rw [following, List.flatMap_append, List.flatMap_singleton, entryText_eq_concat q,
      ← List.cons_append, ← List.append_assoc, ← List.append_assoc, List.getLast?_concat]

lemma stripped_eq_self (first : ∀ p ∈ ps.head?, p.1.head? ≠ some '\x60') : stripped ps = ps := by
  cases ps with
  | nil => rfl
  | cons p ps =>
    have kept : p.1.dropWhile (· == '\x60') = p.1 := by
      refine Text.dropWhile_eq_self fun c hc => beq_eq_false_iff_ne.2 ?_
      rintro rfl
      exact first p rfl hc
    exact congrArg (fun key => (key, p.2) :: ps) kept

/-- The backquotes around a tag are taken off, and those in front of the first key. -/
lemma inside_written (ps : List (List Char × List Char)) :
    Text.dropRightWhile (· == '\x60') ((written ps).dropWhile (· == '\x60')) =
      [' '].intercalate ((stripped ps).map entryText) := by
  cases ps with
  | nil => rfl
  | cons p ps =>
    let first := (p.1.dropWhile (· == '\x60'), p.2)
    have opened : (written (p :: ps)).dropWhile (· == '\x60') =
        entryText first ++ following ps ++ ['\x60'] := by
      have colon (s : List Char) : (':' :: s).dropWhile (· == '\x60') = ':' :: s := rfl
      rw [written, intercalate_entries, entryText, List.dropWhile_cons_of_pos (by rfl),
        List.append_assoc, List.append_assoc, List.dropWhile_append]
      split_ifs with gone
      · rw [List.isEmpty_iff] at gone
        simp [first, entryText, gone, colon]
      · simp [first, entryText]
    have quote : Text.dropRightWhile (· == '\x60') (entryText first ++ following ps) =
        entryText first ++ following ps := by
      refine Text.dropRightWhile_eq_self fun c hc => ?_
      rw [getLast?_entries] at hc
      cases hc
      rfl
    calc _ = Text.dropRightWhile (· == '\x60') (entryText first ++ following ps ++ ['\x60']) := by
          rw [opened]
      _ = Text.dropRightWhile (· == '\x60') (entryText first ++ following ps) :=
          Text.dropRightWhile_append_of_pos (by simp) _
      _ = entryText first ++ following ps := quote
      _ = [' '].intercalate ((stripped (p :: ps)).map entryText) :=
          (intercalate_entries first ps).symm

/-! ## Looking for a key -/

/-- The text between quotes behind the first occurrence of a key with a colon. -/
def search? (k s : List Char) : Option (List Char) :=
  ((Text.splitFirst? (k ++ [':', '"']) s).map Prod.snd).bind fun rest =>
    (Text.splitAtFirst? (· == '"') rest).map Prod.fst

lemma tagValue?_eq_search? (tag k : List Char) :
    tagValue? tag k =
      search? k (Text.dropRightWhile (· == '\x60') (tag.dropWhile (· == '\x60'))) := by
  rw [tagValue?, search?]
  cases Text.splitFirst? (k ++ [':', '"'])
    (Text.dropRightWhile (· == '\x60') (tag.dropWhile (· == '\x60'))) with
  | none => rfl
  | some parts =>
    obtain ⟨_, rest⟩ := parts
    cases h : Text.splitAtFirst? (· == '"') rest <;> simp [h]

/-- A key is found in front of a quote if the text there ends in the key and a colon, and else
behind it. -/
lemma search?_quote (unquoted : '"' ∉ k) {a : List Char} (ha : '"' ∉ a) (rest : List Char) :
    search? k (a ++ '"' :: rest) =
      if k ++ [':'] <:+ a then (Text.splitAtFirst? (· == '"') rest).map Prod.fst
      else search? k rest := by
  have colon : '"' ∉ k ++ [':'] := by simpa using unquoted
  have found := Text.snd_splitFirst?_separator colon ha rest
  rw [List.append_assoc, List.singleton_append] at found
  rw [search?, found]
  split_ifs <;> rfl

/-- A blank in front of the entries makes no difference. -/
lemma search?_blank (plain : ' ' ∉ k) (s : List Char) : search? k (' ' :: s) = search? k s := by
  have away : Text.stripPrefix? (k ++ [':', '"']) (' ' :: s) = none := by
    refine Text.stripPrefix?_eq_none_iff.2 fun begins => ?_
    cases k with
    | nil => simp at begins
    | cons c k =>
      rw [List.cons_append, List.cons_prefix_cons] at begins
      exact plain (begins.1 ▸ List.mem_cons_self)
  have later : (Text.splitFirst? (k ++ [':', '"']) (' ' :: s)).map Prod.snd =
      (Text.splitFirst? (k ++ [':', '"']) s).map Prod.snd := by
    rw [Text.splitFirst?, away]
    exact Option.map_map ..
  rw [search?, later, search?]

/-- What is found of a key in front of its own entry, if anything is: the value of a key that ends
in it, or what follows a value that ends in it and a colon. -/
def obstacle? (k : List Char) : List (List Char × List Char) → Option (Option (List Char))
  | [] => none
  | p :: ps =>
    if p.1 = k then none
    else if k <:+ p.1 then some (some p.2)
    else if k ++ [':'] <:+ p.2 then some (ps.head?.map fun next => ' ' :: next.1 ++ [':'])
    else obstacle? k ps

/-- The entries can be told by their quotes. -/
def Quoteless (ps : List (List Char × List Char)) : Prop := ∀ p ∈ ps, '"' ∉ p.1 ∧ '"' ∉ p.2

lemma quoteless_stripped (quoteless : Quoteless ps) : Quoteless (stripped ps) := by
  cases ps with
  | nil => exact quoteless
  | cons p ps =>
    obtain ⟨⟨keyless, valueless⟩, others⟩ := List.forall_mem_cons.1 quoteless
    exact List.forall_mem_cons.2
      ⟨⟨fun quote => keyless ((List.dropWhile_sublist _).subset quote), valueless⟩, others⟩

lemma following_eq_quotes (p : List Char × List Char) (ps : List (List Char × List Char)) :
    following (p :: ps) = (' ' :: p.1 ++ [':']) ++ '"' :: (p.2 ++ '"' :: following ps) := by
  simp [following_cons, entryText]

lemma not_mem_keyText {key : List Char} (keyless : '"' ∉ key) : '"' ∉ ' ' :: key ++ [':'] := by
  simpa using keyless

/-- Up to the next quote stands the key of the next entry. -/
lemma splitAtFirst?_following (quoteless : Quoteless ps) :
    (Text.splitAtFirst? (· == '"') (following ps)).map Prod.fst =
      ps.head?.map fun next => ' ' :: next.1 ++ [':'] := by
  cases ps with
  | nil => rfl
  | cons p ps =>
    have keyless := not_mem_keyText (quoteless p List.mem_cons_self).1
    rw [following_eq_quotes, Text.splitAtFirst?_separator keyless]
    rfl

/-- A key without a blank does not reach into the blank in front of another one. -/
lemma suffix_keyText_iff (plain : ' ' ∉ k) (key : List Char) :
    k ++ [':'] <:+ ' ' :: key ++ [':'] ↔ k <:+ key := by
  rw [List.suffix_append_inj_of_length_eq rfl, List.suffix_cons_iff]
  constructor
  · rintro ⟨rfl | ends, -⟩
    · exact absurd List.mem_cons_self plain
    · exact ends
  · exact fun ends => ⟨Or.inr ends, rfl⟩

/-- **What is found of a key among entries** is the first obstacle, or without one its own value. -/
theorem search?_following (unquoted : '"' ∉ k) (plain : ' ' ∉ k) (quoteless : Quoteless ps) :
    search? k (following ps) = (obstacle? k ps).getD (ps.lookup k) := by
  induction ps with
  | nil =>
    have absent : Text.splitFirst? (k ++ [':', '"']) [] = none :=
      Text.splitFirst?_eq_none_iff.2 (by simp)
    rw [following, List.flatMap_nil, search?, absent]
    rfl
  | cons p ps ih =>
    obtain ⟨key, value⟩ := p
    obtain ⟨⟨keyless, valueless⟩, others⟩ := List.forall_mem_cons.1 quoteless
    rw [following_eq_quotes, search?_quote unquoted (not_mem_keyText keyless), obstacle?]
    simp only [suffix_keyText_iff plain]
    by_cases own : key = k
    · rw [if_pos own, if_pos (own ▸ List.suffix_rfl), Text.splitAtFirst?_separator valueless, own,
        Option.getD_none, List.lookup_cons_self]
      rfl
    · rw [if_neg own]
      by_cases ends : k <:+ key
      · rw [if_pos ends, if_pos ends, Text.splitAtFirst?_separator valueless]
        rfl
      · rw [if_neg ends, if_neg ends, search?_quote unquoted valueless]
        by_cases inside : k ++ [':'] <:+ value
        · rw [if_pos inside, if_pos inside]
          exact splitAtFirst?_following others
        · rw [if_neg inside, if_neg inside, ih others, List.lookup_cons,
            beq_eq_false_iff_ne.2 (Ne.symm own)]

/-- A key is looked for in a tag as among entries behind another one. -/
lemma tagValue?_eq_search?_following (plain : ' ' ∉ k) (ps : List (List Char × List Char)) :
    tagValue? (written ps) k = search? k (following (stripped ps)) := by
  rw [tagValue?_eq_search?, inside_written]
  cases stripped ps with
  | nil => rfl
  | cons p ps => rw [intercalate_entries, following_cons, search?_blank plain]

/-! ## The value of a key -/

/-- **The value of a key in a tag.**  Where quotes stand around the values only, what is found of a
key is told by the first entry that ends like it, in its key or with a colon in its value, if one
stands in front of its own entry; a key without an entry and without such an obstacle is not found.
So the value of the key itself is found exactly if what the obstacle gives, if there is one, is no
other. -/
theorem tagValue?_written (quoteless : Quoteless ps) (unquoted : '"' ∉ k) (plain : ' ' ∉ k) :
    tagValue? (written ps) k = (obstacle? k (stripped ps)).getD ((stripped ps).lookup k) ∧
      ((∀ p ∈ ps.head?, p.1.head? ≠ some '\x60') →
        (tagValue? (written ps) k = ps.lookup k ↔ ∀ x ∈ obstacle? k ps, x = ps.lookup k)) := by
  have found : tagValue? (written ps) k =
      (obstacle? k (stripped ps)).getD ((stripped ps).lookup k) :=
    (tagValue?_eq_search?_following plain ps).trans
      (search?_following unquoted plain (quoteless_stripped quoteless))
  refine ⟨found, fun first => ?_⟩
  rw [found, stripped_eq_self first]
  cases obstacle? k ps <;> simp

/-- A key behind another one is found under its own entry. -/
theorem tagValue?_written_behind :
    Quoteless [("validate".toList, "min=1".toList), ("json".toList, "id".toList)] ∧
      tagValue? (written [("validate".toList, "min=1".toList), ("json".toList, "id".toList)])
        "json".toList = some "id".toList := by
  have quoteless :
      Quoteless [("validate".toList, "min=1".toList), ("json".toList, "id".toList)] := by
    simp [Quoteless]
  have found := (tagValue?_written quoteless (k := "json".toList) (by decide) (by decide)).2
    (by simp)
  exact ⟨quoteless, found.2 (by decide)⟩

/-- Distinct keys without blanks, quotes and colons, and values without quotes, backquotes and
backslashes are not enough: a key that ends like the one looked for is taken for it. -/
theorem not_tagValue?_written_eq :
    ¬∀ (ps : List (List Char × List Char)) (k v : List Char), (ps.map Prod.fst).Nodup →
      (∀ p ∈ ps, p.1 ≠ [] ∧ ' ' ∉ p.1 ∧ '"' ∉ p.1 ∧ ':' ∉ p.1) →
      (∀ p ∈ ps, '"' ∉ p.2 ∧ '\x60' ∉ p.2 ∧ '\\' ∉ p.2) →
      (k, v) ∈ ps → tagValue? (written ps) k = some v := by
  intro each
  let ps := [("geojson".toList, "point".toList), ("json".toList, "name".toList)]
  have other : tagValue? (written ps) "json".toList = some "point".toList := by decide
  have own := each ps "json".toList "name".toList (by decide) (by decide) (by decide) (by decide)
  exact absurd (other.symm.trans own) (by decide)

end ApiCanon.Go
