import ApiCanon.Proofs.Cache.Identity
import ApiCanon.Proofs.Collection.SortedMap
import ApiCanon.Proofs.Text.Blank
import ApiCanon.Service.Prompt

/-!
# What a key tells of the prompt

A text in the cache is given for every request of its key, so that two requests with one key should
have one prompt.  The key does not tell in which order the fields of the context stand.  At the top
level, nor does the prompt, which has an entry for each field in the order of the names; but the
value of an entry is written as it is.  So the contexts of one key are the same up to the order of
fields at any depth, and their prompts are the same exactly if the order differs at the top level
only (`Prompt.prompts_of_key`).

That a prompt tells the entries of the context takes the key: texts in a context may look like
further entries, but not if they are as long as those that they are compared with
(`eq_of_join_lines_eq`).
-/

namespace ApiCanon

open Json (Value Fields)
open Json.Value (Document Reordered canonicalField)

namespace Prompt

/-! ## Sections -/

/-- The line of an entry of a context. -/
def contextLine (p : String × String) : String := "**" ++ p.1 ++ "**: " ++ p.2 ++ "\n"

/-- The entry of a context for a field. -/
def contextEntry (p : String × Value) : String × String := (p.1, contextText p.2)

/-- The sections about a context. -/
def ofContext : Value → Prompt
  | .null => []
  | .object f => if f = [] then [] else [.context (SortedMap.ofList (f.map contextEntry))]
  | v => [.titled "Context" v.compact]

/-- The text of a prompt before it is trimmed. -/
def written (p : Prompt) : String := String.join (p.map fun s => s.text ++ "\n")

lemma written_singleton {s : PromptSection} {t : String} (text : s.text = t) :
    written [s] = t ++ "\n" := by
  rw [written, List.map_singleton, String.join_cons, String.join_nil, String.append_empty, text]

@[simp] lemma written_append (p q : Prompt) : written (p ++ q) = written p ++ written q := by
  rw [written, List.map_append, String.join_append, ← written, ← written]

section Additions

variable {p : Prompt} (fresh : ∀ m, PromptSection.context m ∉ p)

include fresh

/-- An entry is added behind the sections that are no context. -/
lemma addContext_append (k v : String) (q : Prompt) :
    addContext k v (p ++ q) = p ++ addContext k v q := by
  induction p with
  | nil => rfl
  | cons s p ih =>
    have rest := ih fun m hm => fresh m (List.mem_cons_of_mem s hm)
    cases s with
    | context m => exact absurd List.mem_cons_self (fresh m)
    | _ => exact congrArg (List.cons _) rest

lemma withContext_append (f : Fields) (q : Prompt) :
    withContext (p ++ q) (some (.object f)) = p ++ q.withContext (some (.object f)) := by
  induction f generalizing q with
  | nil => rfl
  | cons e f ih =>
    obtain ⟨k, v⟩ := e
    have rest := ih (addContext k (contextText v) q)
    rw [← addContext_append fresh] at rest
    exact rest

end Additions

lemma withContext_context (f : Fields) (m : SortedMap String) :
    withContext [.context m] (some (.object f)) =
      [.context ((f.map contextEntry).foldl (fun m (k, v) => m.insert k v) m)] := by
  induction f generalizing m with
  | nil => rfl
  | cons e f ih => exact ih (m.insert e.1 (contextText e.2))

/-- The fields of a context make one section, behind the task. -/
lemma withContext_task (k : ItemKind) (c : Option Value) :
    (task k).withContext c = task k ++ ofContext (c.getD .null) := by
  have fresh : ∀ m, PromptSection.context m ∉ task k := by
    cases k <;> simp [task]
  cases c with
  | none => exact (List.append_nil _).symm
  | some v =>
    cases v with
    | null => exact (List.append_nil _).symm
    | object f =>
      have behind := withContext_append fresh f []
      rw [List.append_nil] at behind
      refine behind.trans (congrArg (task k ++ ·) ?_)
      cases f with
      | nil => rfl
      | cons e f => exact withContext_context f _
    | _ => rfl

/-- A text between the marks of a block of code. -/
def fenced (t : String) : String := "\x60\x60\x60json\n" ++ t ++ "\n\x60\x60\x60"

lemma written_code (t : String) : written [.code "json" t] = fenced t ++ "\n\n" := by
  have text : (PromptSection.code "json" t).text =
    "\x60\x60\x60" ++ "json" ++ "\n" ++ t ++ "\n\x60\x60\x60\n" := rfl
  have opening : "\x60\x60\x60" ++ "json" ++ "\n" = "\x60\x60\x60json\n" := rfl
  have feeds : "\n\x60\x60\x60\n" ++ "\n" = "\n\x60\x60\x60" ++ "\n\n" := rfl
  rw [written_singleton text, opening, fenced, String.append_assoc, feeds, ← String.append_assoc]

lemma visible_fenced (s t : String) :
    ∀ c ∈ (s ++ fenced t).toList.getLast?, Text.isBlank c = false := by
  have fence : "\n\x60\x60\x60".toList = ['\n', '\x60', '\x60', '\x60'] := rfl
  intro c hc
  rw [fenced, ← String.append_assoc, String.toList_append, fence,
    List.getLast?_append_of_ne_nil _ (by nofun)] at hc
  cases hc
  rfl

/-- The text of a prompt is that of its sections, and nothing but line feeds is trimmed. -/
lemma text_ofRequest (r : ServiceRequest) :
    (ofRequest r).text =
      written (task r.kind) ++ written (ofContext (r.context.getD .null)) ++
        fenced (Text.truncate payloadLimit r.payload.pretty) := by
  generalize shown : Text.truncate payloadLimit r.payload.pretty = t
  have sections : ofRequest r = task r.kind ++ ofContext (r.context.getD .null) ++
      [.code "json" t] := by
    rw [ofRequest, withContext_task, shown]
  have whole : (ofRequest r).text = Text.trimmedRight (written (ofRequest r)) := rfl
  rw [whole, sections, written_append, written_append, written_code, ← String.append_assoc,
    Text.trimmedRight_append (visible_fenced _ t) (by decide)]

/-- Requests that differ in their contexts have one prompt exactly if the sections about the
contexts have one text. -/
lemma text_eq_iff (k : ItemKind) (payload : Value) (c d : Option Value) :
    (ofRequest ⟨k, payload, c⟩).text = (ofRequest ⟨k, payload, d⟩).text ↔
      written (ofContext (c.getD .null)) = written (ofContext (d.getD .null)) := by
  rw [text_ofRequest, text_ofRequest, String.append_left_inj, String.append_right_inj]

/-! ## Entries -/

/-- Entries of the same keys are told by their lines if their texts are of the same length. -/
lemma eq_of_join_lines_eq {l m : List (String × String)}
    (sizes : l.map (fun p => (p.1, p.2.length)) = m.map fun p => (p.1, p.2.length))
    (same : String.join (l.map contextLine) = String.join (m.map contextLine)) : l = m := by
  induction l generalizing m with
  | nil =>
    cases m with
    | nil => rfl
    | cons q m => cases sizes
  | cons p l ih =>
    cases m with
    | nil => cases sizes
    | cons q m =>
      obtain ⟨k, s⟩ := p
      obtain ⟨k', t⟩ := q
      obtain ⟨first, others⟩ := List.cons.inj sizes
      obtain ⟨rfl, size⟩ : k = k' ∧ s.length = t.length := Prod.mk.inj first
      rw [List.map_cons, List.map_cons, String.join_cons, String.join_cons] at same
      have chars := congrArg String.toList same
      rw [String.toList_append, String.toList_append] at chars
      have lengths : (contextLine (k, s)).toList.length = (contextLine (k, t)).toList.length := by
        simp only [String.length_toList, contextLine, String.length_append]
        omega
      obtain ⟨line, rest⟩ := List.append_inj chars lengths
      have text : s = t := by
        have line := String.toList_injective line
        rwa [contextLine, contextLine, String.append_left_inj, String.append_right_inj] at line
      rw [text, ih others (String.toList_injective rest)]

/-- The text of an entry is as long for every order of fields. -/
lemma length_contextText_canonicalize (v : Value) :
    (contextText v.canonicalize).length = (contextText v).length := by
  have compact : v.canonicalize.compact.length = v.compact.length := by
    rw [Value.compact, Value.compact, String.length_ofList, String.length_ofList,
      Json.Value.length_compactChars_canonicalize]
  cases v with
  | array | object => exact compact
  | _ => rfl

/-- Which of the values with one canonical form it is, the text of an entry tells. -/
lemma eq_of_contextText_eq {v w : Value} (hv : v.Doubles) (hw : w.Doubles)
    (form : v.canonicalize = w.canonicalize) (same : contextText v = contextText w) : v = w := by
  cases v with
  | string s =>
    cases w with
    | string t => exact congrArg Value.string same
    | _ => cases form
  | _ =>
    cases w with
    | string t => cases form
    | _ => exact Json.eq_of_compact_eq hv hw same

/-- The sections of two contexts tell their entries, if these are of the same lengths. -/
lemma written_context_eq_iff {m n : SortedMap String}
    (sizes : m.mapValues String.length = n.mapValues String.length) :
    written [.context m] = written [.context n] ↔ m = n := by
  have text : ∀ m : SortedMap String, (PromptSection.context m).text =
    "# Context\n\n" ++ String.join (m.entries.map contextLine) := fun _ => rfl
  refine ⟨fun same => ?_, fun same => same ▸ rfl⟩
  rw [written_singleton (text m), written_singleton (text n), String.append_left_inj,
    String.append_right_inj] at same
  exact SortedMap.ext_entries (eq_of_join_lines_eq (congrArg SortedMap.entries sizes) same)

lemma written_titled_eq_iff {s t : String} :
    written [.titled "Context" s] = written [.titled "Context" t] ↔ s = t := by
  have text : ∀ s, (PromptSection.titled "Context" s).text =
    "# " ++ "Context" ++ "\n\n" ++ s ++ "\n" := fun _ => rfl
  rw [written_singleton (text s), written_singleton (text t), String.append_left_inj,
    String.append_left_inj, String.append_right_inj]

section Fields

variable {f g : Fields} (moved : (f.map canonicalField).Perm (g.map canonicalField))

include moved

lemma mapValues_contextEntry_eq (distinct : (f.map (·.1)).Nodup) :
    (SortedMap.ofList (f.map contextEntry)).mapValues String.length =
      (SortedMap.ofList (g.map contextEntry)).mapValues String.length := by
  have sizes : ∀ f : Fields, (f.map contextEntry).map (fun p => (p.1, p.2.length)) =
      (f.map canonicalField).map fun p => (p.1, (contextText p.2).length) := by
    intro f
    rw [List.map_map, List.map_map]
    refine List.map_congr_left fun p _ => ?_
    exact congrArg (Prod.mk p.1) (length_contextText_canonicalize p.2).symm
  rw [SortedMap.mapValues_ofList, SortedMap.mapValues_ofList, sizes, sizes]
  refine SortedMap.ofList_eq_of_perm ?_ (moved.map _)
  rw [List.map_map, List.map_map]
  exact distinct

/-- The fields have the same entries exactly if they are the same in another order. -/
lemma ofList_contextEntry_eq_iff (hf : (Value.object f).Document) (hg : (Value.object g).Document) :
    SortedMap.ofList (f.map contextEntry) = SortedMap.ofList (g.map contextEntry) ↔ f.Perm g := by
  have keys : ∀ {f : Fields}, (Value.object f).Document →
      ((f.map contextEntry).map (·.1)).Nodup := by
    intro f h
    rw [List.map_map]
    exact h.distinct.keys
  constructor
  · intro same
    have sub : f ⊆ g := by
      rintro ⟨k, v⟩ hv
      obtain ⟨⟨l, w⟩, hw, field⟩ := List.mem_map.1 (moved.subset (List.mem_map_of_mem hv))
      obtain ⟨rfl, form⟩ : l = k ∧ w.canonicalize = v.canonicalize := Prod.mk.inj field
      have value : (f.map contextEntry).lookup l = (g.map contextEntry).lookup l := by
        rw [← SortedMap.get?_ofList (keys hf), ← SortedMap.get?_ofList (keys hg), same]
      have left := (SortedMap.lookup_eq_some_iff (keys hf) l (contextText v)).2
        (List.mem_map_of_mem hv)
      have right := (SortedMap.lookup_eq_some_iff (keys hg) l (contextText w)).2
        (List.mem_map_of_mem hw)
      have text : contextText v = contextText w := by
        rw [value, right] at left
        exact (Option.some.inj left).symm
      obtain rfl :=
        eq_of_contextText_eq (hf.doubles.value _ hv) (hg.doubles.value _ hw) form.symm text
      exact hw
    have count : g.length ≤ f.length := by
      rw [← List.length_map canonicalField, ← moved.length_eq, List.length_map]
    exact (List.subperm_of_subset hf.distinct.keys.of_map sub).perm_of_length_le count
  · exact fun perm => SortedMap.ofList_eq_of_perm (keys hf) (perm.map _)

end Fields

/-! ## Contexts -/

/-- The contexts are the same but for the order of the fields at the top level. -/
def AgreeAtTop : Value → Value → Prop
  | .object f, .object g => f.Perm g
  | v, w => v = w

/-- Of the contexts with one canonical form, those that agree at the top level have one text. -/
lemma written_ofContext_eq_iff {v w : Value} (hv : v.Document) (hw : w.Document)
    (form : v.canonicalize = w.canonicalize) :
    written (ofContext v) = written (ofContext w) ↔ AgreeAtTop v w := by
  cases v with
  | null | bool | number | string =>
    cases w <;> cases form
    exact iff_of_true rfl rfl
  | array a =>
    cases w with
    | array b =>
      exact written_titled_eq_iff.trans
        ⟨Json.eq_of_compact_eq hv.doubles hw.doubles, congrArg Value.compact⟩
    | _ => cases form
  | object f =>
    cases w with
    | object g =>
      have moved : (f.map canonicalField).Perm (g.map canonicalField) := by
        rw [Json.Value.canonicalize, Json.Value.canonicalize] at form
        have fields := Value.object.inj form
        exact (Json.Value.canonicalFields_perm f).symm.trans
          (fields ▸ Json.Value.canonicalFields_perm g)
      show _ ↔ f.Perm g
      have count : f.length = g.length := by
        rw [← List.length_map canonicalField, moved.length_eq, List.length_map]
      rw [ofContext, ofContext]
      by_cases none : f = []
      · subst none
        obtain rfl := List.length_eq_zero_iff.1 count.symm
        exact iff_of_true rfl (.refl _)
      · have other : g ≠ [] := List.ne_nil_of_length_pos (count ▸ List.length_pos_iff.2 none)
        rw [if_neg none, if_neg other,
          written_context_eq_iff (mapValues_contextEntry_eq moved hv.distinct.keys),
          ofList_contextEntry_eq_iff moved hv hw]
    | _ => cases form

/-- **Prompts of one key differ in the order of nested fields only.** -/
theorem prompts_of_key {e : Endpoint} {c d : Option Value}
    (values : CollisionFree [CacheKey.valueBytes c, CacheKey.valueBytes d])
    (hc : (c.getD .null).Document) (hd : (d.getD .null).Document)
    (key : CacheKey.enhancement e c = CacheKey.enhancement e d) :
    Reordered (c.getD .null) (d.getD .null) ∧
      ((ofRequest ⟨.enhance, e.toJson, c⟩).text = (ofRequest ⟨.enhance, e.toJson, d⟩).text ↔
        AgreeAtTop (c.getD .null) (d.getD .null)) := by
  obtain ⟨-, -, digest⟩ := CacheKey.compose_injective key
  have bytes := values (CacheKey.valueBytes c) (by simp) (CacheKey.valueBytes d) (by simp) digest
  have reordered := (CacheKey.ofString_canonicalText_eq_iff hc hd).1 bytes
  refine ⟨reordered, ?_⟩
  rw [text_eq_iff]
  exact written_ofContext_eq_iff hc hd
    ((Json.Value.canonicalize_eq_iff hc.distinct).2 reordered)

/-- One context in two orders. -/
theorem prompts_of_key_limits :
    CollisionFree [CacheKey.valueBytes (some CacheKey.limits),
        CacheKey.valueBytes (some CacheKey.limitsReordered)] ∧
      CacheKey.limits.Document ∧ CacheKey.limitsReordered.Document ∧
      CacheKey.enhancement (Endpoint.plain .get "/pets") (some CacheKey.limits) =
        CacheKey.enhancement (Endpoint.plain .get "/pets") (some CacheKey.limitsReordered) ∧
      (ofRequest ⟨.enhance, (Endpoint.plain .get "/pets").toJson, some CacheKey.limits⟩).text =
        (ofRequest
          ⟨.enhance, (Endpoint.plain .get "/pets").toJson,
            some CacheKey.limitsReordered⟩).text := by
  obtain ⟨document, document'⟩ := CacheKey.document_limits
  have digested : CacheKey.limits.canonicalText = CacheKey.limitsReordered.canonicalText := by
    decide +kernel
  have values : CollisionFree [CacheKey.valueBytes (some CacheKey.limits),
      CacheKey.valueBytes (some CacheKey.limitsReordered)] :=
    .of_eq (congrArg Bytes.ofString digested)
  have key : CacheKey.enhancement (Endpoint.plain .get "/pets") (some CacheKey.limits) =
      CacheKey.enhancement (Endpoint.plain .get "/pets") (some CacheKey.limitsReordered) :=
    CacheKey.enhancement_congr digested
  exact ⟨values, document, document', key,
    (prompts_of_key values document document' key).2.2 (.swap _ _ _)⟩

/-- A context with an object in it. -/
def pair (first second : String × Value) : Value := .object [("a", .object [first, second])]

/-- The order of the fields further down is seen in the prompt. -/
theorem prompts_ne_of_nested :
    CacheKey.enhancement (Endpoint.plain .get "/pets")
        (some (pair ("x", .ofNat 1) ("y", .ofNat 2))) =
        CacheKey.enhancement (Endpoint.plain .get "/pets")
          (some (pair ("y", .ofNat 2) ("x", .ofNat 1))) ∧
      (ofRequest ⟨.enhance, (Endpoint.plain .get "/pets").toJson,
          some (pair ("x", .ofNat 1) ("y", .ofNat 2))⟩).text ≠
        (ofRequest ⟨.enhance, (Endpoint.plain .get "/pets").toJson,
          some (pair ("y", .ofNat 2) ("x", .ofNat 1))⟩).text := by
  refine ⟨CacheKey.enhancement_congr (by decide +kernel), ?_⟩
  rw [Ne, text_eq_iff]
  decide +kernel

end Prompt

end ApiCanon
