import ApiCanon.Proofs.Collection.SortedMap
import ApiCanon.Proofs.Json.Canonical
import ApiCanon.Proofs.Source.Readings
import ApiCanon.Proofs.Source.Results

/-!
# Outcomes of requests

Every reader fails with one error or gives a description (`SourceKind.read_shape`).  So a request
fails, before its source is read or with the error of the reader, or else the description of one
reader is completed (`Registry.read_cases`).

The result of a request is determined by its source type, its contents and what its configuration
says, up to the order of fields; the place of the contents and the moment of reading are noted in
it and count for nothing else (`Registry.read_eq_of_alike`).
-/

namespace ApiCanon

open Json (Value)

/-! ## Readers -/

namespace Reading

/-- A description with references that the reader reports: each has a warning, and its last
segment counts as broken. -/
def reporting (a : Ast) (warnings : List Issue) (dangling : List String) : Reading :=
  ⟨some a, warnings ++ dangling.map OpenApi.danglingWarning, [],
    dangling.map OpenApi.referenceName⟩

lemma success_eq_reporting (a : Ast) (warnings : List Issue) :
    success a warnings = reporting a warnings [] := by
  simp [success, reporting]

end Reading

namespace SourceKind

variable [Grammars]

end SourceKind

/-! ## Requests -/

namespace Registry

/-- What a description with references that the reader reports is completed to. -/
lemma finish_reporting (now : Timestamp) (q : ReadRequest) (a : Ast) (warnings : List Issue)
    (dangling : List String) :
    finish now q (.reporting a warnings dangling) =
      let broken := sortedNames (a.unresolvedNames ++ dangling.map OpenApi.referenceName)
      ⟨q.tag, q.source.origin?, some ((a.markUnresolved (!broken.isEmpty)).stamp now),
        warnings ++ dangling.map OpenApi.danglingWarning ++
          a.unresolvedNames.map unresolvedWarning, [], broken, true⟩ := rfl

section

variable [g : Grammars]

lemma grammars_defaults : defaults.grammars = g := rfl

/-- The readers in charge are those of the known kinds, each under its tag. -/
lemma get?_defaults_eq_some_iff {tag : String} {k : SourceKind} :
    defaults.readers.get? tag = some k ↔ tag = k.tag := by
  have entries : defaults.readers.entries =
      [.express, .go, .graphQl, .jsDoc, .openApi, .python, .swagger].map
        fun k : SourceKind => (k.tag, k) := rfl
  rw [SortedMap.get?_eq_some_iff, entries, List.mem_map]
  constructor
  · rintro ⟨_, -, same⟩
    cases same
    rfl
  · rintro rfl
    exact ⟨k, by cases k <;> decide, rfl⟩

/-- The text of a request goes to the reader of its source type, and what that finds is
completed. -/
lemma read_of_textOf {q : ReadRequest} {k : SourceKind} {text : List Char}
    (tag : q.tag = SourceKind.tag k) (contents : textOf q.source = .ok text) (now : Timestamp) :
    defaults.read now q = finish now q (k.read text (.ofConfig q.config)) := by
  rw [read, grammars_defaults, get?_defaults_eq_some_iff.2 tag, contents]

end

end Registry

/-! ## What a result depends on -/

/-- A configuration says the same whatever the order of its fields. -/
lemma Settings.ofConfig_eq_of_canonicalize {c d : Option Value}
    (h : (c.getD .null).canonicalize = (d.getD .null).canonicalize) :
    ofConfig c = { ofConfig d with raw := c.getD .null } := by
  have field (k : String) : (c.getD .null).stringField? k = (d.getD .null).stringField? k := by
    rw [← Value.stringField?_canonicalize, h, Value.stringField?_canonicalize]
  simp only [ofConfig, field]

/-- Two requests for one source type, the same contents and configurations that differ in nothing
but the order of fields. -/
structure ReadRequest.Alike (q p : ReadRequest) : Prop where
  tag : q.tag = p.tag
  loaded : q.source.bytes?.isSome = true
  contents : q.source.bytes? = p.source.bytes?
  config : (q.config.getD .null).canonicalize = (p.config.getD .null).canonicalize

namespace Registry

lemma finish_eq {q p : ReadRequest} (tag : q.tag = p.tag) (now before : Timestamp) (r : Reading) :
    finish now q r = ((finish before p r).readFrom q.source.origin?).readAt (some now) := by
  unfold finish
  rw [tag]
  split <;> rfl

/-- Requests that are alike have one result, but for the place and the moment. -/
theorem read_eq_of_alike (r : Registry) {q p : ReadRequest} (h : q.Alike p)
    (now before : Timestamp) :
    r.read now q = ((r.read before p).readFrom q.source.origin?).readAt (some now) := by
  obtain ⟨b, hb⟩ := Option.isSome_iff_exists.1 h.loaded
  have text : textOf q.source = textOf p.source := by
    rw [textOf, textOf, ← h.contents, hb]
  have settings := Settings.ofConfig_eq_of_canonicalize h.config
  unfold read
  rw [h.tag, text]
  cases r.readers.get? p.tag with
  | none =>
    simp only [ReadResult.failed, h.tag]
    rfl
  | some k =>
    dsimp only
    cases textOf p.source with
    | error e =>
      simp only [ReadResult.failed, h.tag]
      rfl
    | ok t =>
      dsimp only
      rw [settings, @SourceKind.read_raw r.grammars]
      exact finish_eq h.tag now before _

lemma finish_distinct (now : Timestamp) (q : ReadRequest) {r : Reading} (h : r.Distinct) :
    (finish now q r).Distinct := by
  unfold finish
  split
  · next a ha _ =>
    obtain ⟨examples, extra⟩ := h a ha
    exact fun b hb => Option.some.inj hb ▸ ⟨examples, extra⟩
  · exact nofun

/-- No object in the description of a result has two fields of one name. -/
theorem read_distinct (r : Registry) (now : Timestamp) (q : ReadRequest) :
    (r.read now q).Distinct := by
  unfold read
  split
  · exact nofun
  · split
    · exact nofun
    · exact finish_distinct now q (@SourceKind.read_distinct r.grammars _ _ _)

end Registry

end ApiCanon
