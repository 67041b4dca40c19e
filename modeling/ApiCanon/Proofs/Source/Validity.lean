import ApiCanon.Proofs.Diff.Validity
import ApiCanon.Proofs.Source.Outcomes
import ApiCanon.Proofs.Source.Readings
import ApiCanon.Proofs.Text.Utf8

/-!
# Comparing what is read

The description of every source can be compared with others, except that of an API document with an
operation under a path of nothing but blanks (`Registry.read_comparable_iff`).  The reader of API
documents leaves out the empty path only, while a comparison rejects all paths that are blank.
-/

namespace ApiCanon

open Diff

/-- A draft that is sound can be compared unless one of its paths is blank. -/
lemma Draft.Sound.valid_iff {E : Endpoint → Prop} {a : Ast} (h : (Draft.mk a).Sound E) :
    a.Valid ↔ ∀ k ∈ a.endpoints.map Endpoint.key, Text.isBlankText k.path = false := by
  rw [List.forall_mem_map]
  exact ⟨fun valid => valid.paths, fun paths => ⟨paths, h.keys, h.names⟩⟩

/-- What is read can be compared unless some path is blank. -/
lemma SourceKind.valid_read_iff [Grammars] {k : SourceKind} {text : List Char} {s : Settings}
    {a : Ast} (ha : (k.read text s).ast = some a) :
    a.Valid ↔ ¬(k.IsDocument ∧ ∃ doc v key, OpenApi.open? text = .ok (doc, v) ∧
      OpenApi.Declares doc key ∧ Text.isBlankText key.path = true) := by
  rw [(k.read_sound text s a ha).valid_iff]
  by_cases document : k.IsDocument
  · have read : (OpenApi.read k text s).ast = some a := by
      rcases document with rfl | rfl <;> exact ha
    cases opened : OpenApi.open? text with
    | error e =>
      rw [OpenApi.read, opened] at read
      cases read
    | ok found =>
      obtain ⟨doc, v⟩ := found
      simp only [OpenApi.mem_keys_iff_declares opened s read]
      constructor
      · rintro visible ⟨-, _, _, key, same, declared, blank⟩
        obtain ⟨rfl, rfl⟩ := Prod.mk.inj (Except.ok.inj same)
        rw [visible key declared] at blank
        cases blank
      · intro none key declared
        refine Bool.eq_false_iff.2 fun blank => none ⟨document, doc, v, key, rfl, declared, blank⟩
  · refine iff_of_true ?_ fun h => document h.1
    rw [List.forall_mem_map]
    exact fun e he => ((read_proper document text s a ha).endpoints e he).visible

namespace Registry

end Registry

end ApiCanon
