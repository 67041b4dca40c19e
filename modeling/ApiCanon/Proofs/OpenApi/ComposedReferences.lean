import ApiCanon.Proofs.OpenApi.SchemaReferences

/-!
# References of compositions

What a schema of a document refers to, told from its composition (`composed_references`): the names
by which the last definitions of its properties refer.  Such a name is referred to by the
description, broken if it is no schema's, and within reach of every endpoint from which the schema
is.

A part of the composition that is itself a reference brings no property and so no name
(`not_referenced_of_base`), and a definition is lost if another one of its property follows.  Where
the composition has neither, all its references are kept.
-/

namespace ApiCanon.OpenApi

open Json (Value Fields)
open Relation (ReflTransGen)

/-! ## References -/

/-- A schema object has a reference in its composition: at whatever depth, a property is defined by
it, or it is a part. -/
inductive Composes (reference : String) (raw : Value) : Prop
  | property {v s : Value} {k : String} (chain : ReflTransGen HasPart raw v)
      (defined : (k, s) ∈ ownDefinitions v) (mentions : Mentions reference s)
  | part {v w : Value} (chain : ReflTransGen HasPart raw v) (last : HasPart v w)
      (refers : w.stringField? "$ref" = some reference)

/-- A schema object has a reference by the last definition of a property. -/
def Keeps (reference : String) (raw : Value) : Prop :=
  ∃ k s, (k, s) ∈ lastsBy Prod.fst (composed raw) ∧ Mentions reference s

/-- No part of a composition is a reference, and no property is defined twice in it. -/
structure Inlined (raw : Value) : Prop where
  parts : ∀ v w, ReflTransGen HasPart raw v → HasPart v w → w.stringField? "$ref" = none
  distinct : ((composed raw).map Prod.fst).Nodup

/-- Where the parts are inlined, every reference is kept. -/
lemma Inlined.keeps {raw : Value} (h : Inlined raw) {reference : String}
    (composes : Composes reference raw) : Keeps reference raw := by
  cases composes with
  | @property v s k chain defined mentions =>
    obtain ⟨before, after, whole⟩ :=
      List.append_of_mem ((mem_composed_iff raw _).2 ⟨v, chain, defined⟩)
    have distinct := h.distinct
    rw [whole, List.map_append, List.map_cons] at distinct
    have fresh : k ∉ after.map Prod.fst := (List.nodup_cons.1 (List.nodup_append.1 distinct).2.1).1
    refine ⟨k, s, (mem_lastsBy_iff Prod.fst _ _).2 ⟨before, after, whole, ?_⟩, mentions⟩
    exact fun p hp same => fresh (List.mem_map.2 ⟨p, hp, same⟩)
  | part chain last refers => cases (h.parts _ _ chain last).symm.trans refers

/-- A schema refers to the names of the references that it keeps. -/
lemma refers_buildSchema_iff_keeps (name : String) (raw : Value) (n : String) :
    (buildSchema name raw).Refers n ↔
      ∃ reference, Keeps reference raw ∧ referenceName reference = n := by
  rw [refers_buildSchema_iff]
  simp only [refers_typeOf_iff, Keeps]
  constructor
  · rintro ⟨k, s, last, reference, mentions, rfl⟩
    exact ⟨reference, ⟨k, s, last, mentions⟩, rfl⟩
  · rintro ⟨reference, ⟨k, s, last, mentions⟩, rfl⟩
    exact ⟨k, s, last, reference, mentions, rfl⟩

/-! ## Schemas of a document -/

/-- A description takes a reference of one of its schemas into account: the name is referred to,
broken if there is no schema of it, and reached from every endpoint that reaches the schema. -/
structure Heeds (r : ReadResult) (a : Ast) (schema n : String) : Prop where
  referred : n ∈ a.referencedNames
  broken : a.schemas.get? n = none → n ∈ r.brokenDependencies ∧ a.unresolved = true
  reached : ∀ e ∈ a.endpoints, schema ∈ Diff.reachableSchemas e a.schemas →
    n ∈ Diff.reachableSchemas e a.schemas

lemma heeds_of_refers {doc : Value} {v : Version} {settings : Settings} {r : ReadResult} {a : Ast}
    (describes : Describes doc v settings r a) {name n : String} {x : Schema}
    (found : a.schemas.get? name = some x) (refers : x.Refers n) : Heeds r a name n where
  referred := (a.mem_referencedNames_iff n).2 (.inr ⟨name, x, found, refers⟩)
  broken := fun unknown => describes.reported_of_dangles ⟨.inr ⟨name, x, found, refers⟩, unknown⟩
  reached := fun e _ there => by
    obtain ⟨first, root, chain⟩ := (Diff.mem_reachableSchemas_iff e a.schemas name).1 there
    exact (Diff.mem_reachableSchemas_iff e a.schemas n).2
      ⟨first, root, chain.tail ⟨x, found, refers⟩⟩

/-- **What the schemas of a document refer to.**  In the description of every document of the newer
generation, a schema refers exactly to the names of the references by which the last definitions of
the properties in its composition refer, and the description takes them into account.  These are all
the references of the composition if no part of it is a reference and no property is defined
twice. -/
theorem composed_references [Grammars] (now : Timestamp) {q : ReadRequest} {doc : Value}
    (h : Opens q doc .three) : ∃ a, (Registry.defaults.read now q).ast = some a ∧
      ∀ name raw, Fields.get? name (definitions doc .three) = some raw →
        ∃ x, a.schemas.get? name = some x ∧
          (∀ n, x.Refers n ↔ ∃ reference, Keeps reference raw ∧ referenceName reference = n) ∧
          (∀ n, x.Refers n → Heeds (Registry.defaults.read now q) a name n) ∧
          (Inlined raw → ∀ reference, Composes reference raw →
            x.Refers (referenceName reference)) := by
  obtain ⟨a, describes⟩ := describes_of_opens now h
  refine ⟨a, describes.ast, fun name raw has => ?_⟩
  have found : a.schemas.get? name = some (buildSchema name raw) := by
    rw [describes.schemas, has, Option.map_some]
  refine ⟨_, found, refers_buildSchema_iff_keeps name raw, fun n => heeds_of_refers describes found,
    fun inlined reference composes => ?_⟩
  exact (refers_buildSchema_iff_keeps name raw _).2 ⟨reference, inlined.keeps composes, rfl⟩

/-- A document with a schema that has a property of a part, of a type that is missing. -/
def ownerText : String :=
  "\x7b\"openapi\":\"3\",\"paths\":\x7b\"/u\":\x7b\"get\":\x7b\"responses\":\x7b\"200\":\x7b\"content\":" ++
    "\x7b\"application/json\":\x7b\"schema\":\x7b\"$ref\":\"#/components/schemas/Dog\"" ++
    "\x7d\x7d\x7d\x7d\x7d\x7d\x7d\x7d,\"components\":\x7b\"schemas\":\x7b\"Dog\":\x7b\"allOf\":[" ++
    "\x7b\"properties\":\x7b\"owner\":\x7b\"$ref\":\"#/components/schemas/Person\"\x7d\x7d\x7d]\x7d\x7d\x7d\x7d"

/-- The schema object that refers to a schema by its name. -/
def pointing (name : String) : Value :=
  .object [("$ref", .string ("#/components/schemas/" ++ name))]

/-- A schema object with a property of a type. -/
def ownerPart : Value := .object [("properties", .object [("owner", pointing "Person")])]

/-- A schema object that is composed of one part. -/
def composedOf (part : Value) : Value := .object [("allOf", .array [part])]

def ownerDocument : Value := documentWith (pointing "Dog") [("Dog", composedOf ownerPart)]

theorem composed_references_owner : Opens (requestFor ownerText) ownerDocument .three ∧
    ∃ a e, (Registry.defaults.read ⟨0, 0⟩ (requestFor ownerText)).ast = some a ∧
      e ∈ a.endpoints ∧ "Person" ∈ a.referencedNames ∧
      "Person" ∈ (Registry.defaults.read ⟨0, 0⟩ (requestFor ownerText)).brokenDependencies ∧
      "Person" ∈ Diff.reachableSchemas e a.schemas := by
  have opens : Opens (requestFor ownerText) ownerDocument .three :=
    opens_requestFor (by decide +kernel)
  obtain ⟨a, read, schemas⟩ := composed_references ⟨0, 0⟩ opens
  have named : definitions ownerDocument .three = [("Dog", composedOf ownerPart)] := by
    decide +kernel
  obtain ⟨x, -, -, heeds, keeps⟩ := schemas "Dog" (composedOf ownerPart) (by rw [named]; rfl)
  obtain ⟨b, describes⟩ := describes_of_opens ⟨0, 0⟩ opens
  obtain rfl := Option.some.inj (read.symm.trans describes.ast)
  have part : HasPart (composedOf ownerPart) ownerPart := List.mem_singleton.2 rfl
  have whole : composed (composedOf ownerPart) = [("owner", pointing "Person")] := by
    have parts : partsOf (composedOf ownerPart) = [ownerPart] := rfl
    rw [composed_eq, parts, List.flatMap_singleton, composed_eq]
    rfl
  have inlined : Inlined (composedOf ownerPart) := by
    refine ⟨fun v w chain mem => ?_, by rw [whole]; exact List.nodup_singleton _⟩
    rcases chain.cases_head with rfl | ⟨u, first, rest⟩
    · obtain rfl := List.mem_singleton.1 mem
      rfl
    · obtain rfl := List.mem_singleton.1 first
      rcases rest.cases_head with rfl | ⟨t, second, -⟩
      · cases mem
      · cases second
  have person : referenceName "#/components/schemas/Person" = "Person" := by decide +kernel
  have refers := keeps inlined "#/components/schemas/Person"
    (.property (.single part) (List.mem_singleton.2 rfl) (.direct rfl))
  rw [person] at refers
  have heed := heeds "Person" refers
  have schema : HasSchema ownerDocument (pointing "Dog") (.response ⟨.get, "/u"⟩ "200") :=
    ⟨answering (pointing "Dog"), by decide +kernel, rfl, _, _, List.mem_singleton.2 rfl,
      resolve_of_plain rfl, _, _, rfl, rfl⟩
  obtain ⟨e, he, -, r, hr, -, type⟩ := hasType_of_hasSchema describes schema
  have dog : referenceName "#/components/schemas/Dog" = "Dog" := by decide +kernel
  have root : e.Refers "Dog" :=
    .response r hr _ type ((refers_typeOf_iff _ _).2 ⟨_, .direct rfl, dog⟩)
  have there := (Diff.mem_reachableSchemas_iff e a.schemas "Dog").2 ⟨"Dog", root, .refl⟩
  refine ⟨opens, a, e, read, he, heed.referred, (heed.broken ?_).1, heed.reached e he there⟩
  rw [describes.schemas, named]
  rfl

/-- A document with a schema that is composed of one that is missing. -/
def baseText : String :=
  "\x7b\"openapi\":\"3\",\"components\":\x7b\"schemas\":\x7b\"Dog\":\x7b\"allOf\":[" ++
    "\x7b\"$ref\":\"#/components/schemas/Animal\"\x7d]\x7d\x7d\x7d\x7d"

def baseDocument : Value :=
  .object [("openapi", .string "3"), ("components", .object [("schemas",
    .object [("Dog", composedOf (pointing "Animal"))])])]

/-- **A schema that another one is composed of is not referred to.**  It is missing, and it is not
reported. -/
theorem not_referenced_of_base : ∃ a,
    (Registry.defaults.read ⟨0, 0⟩ (requestFor baseText)).ast = some a ∧
      Fields.get? "Dog" (definitions baseDocument .three) = some (composedOf (pointing "Animal")) ∧
      Composes "#/components/schemas/Animal" (composedOf (pointing "Animal")) ∧
      a.schemas.get? "Animal" = none ∧ "Animal" ∉ a.referencedNames ∧
      (Registry.defaults.read ⟨0, 0⟩ (requestFor baseText)).brokenDependencies = [] := by
  have opens : Opens (requestFor baseText) baseDocument .three :=
    opens_requestFor (by decide +kernel)
  obtain ⟨a, describes⟩ := describes_of_opens ⟨0, 0⟩ opens
  have schemas : definitions baseDocument .three = [("Dog", composedOf (pointing "Animal"))] := by
    decide +kernel
  have bare : operations baseDocument = [] := by decide +kernel
  have whole : composed (composedOf (pointing "Animal")) = [] := by
    have parts : partsOf (composedOf (pointing "Animal")) = [pointing "Animal"] := rfl
    rw [composed_eq, parts, List.flatMap_singleton, composed_eq]
    rfl
  have silent : ∀ n, ¬a.Refers n := by
    rintro n (⟨e, he, -⟩ | ⟨k, x, found, refers⟩)
    · rw [describes.endpoints, firstOperations, bare] at he
      cases he
    · rw [describes.schemas, schemas, Option.map_eq_some_iff] at found
      obtain ⟨raw, here, rfl⟩ := found
      obtain ⟨reference, ⟨l, s, last, -⟩, -⟩ := (refers_buildSchema_iff_keeps k raw n).1 refers
      obtain ⟨rfl, rfl⟩ := Prod.mk.inj (List.mem_singleton.1 (Fields.mem_of_get? here))
      exact List.not_mem_nil (whole ▸ lastsBy_subset Prod.fst _ last)
  refine ⟨a, describes.ast, ?_, ?_, ?_, ?_, ?_⟩
  · rw [schemas]
    rfl
  · exact .part .refl (List.mem_singleton.2 rfl) rfl
  · rw [describes.schemas, schemas]
    rfl
  · exact fun mem => silent _ ((a.mem_referencedNames_iff _).1 mem)
  · refine describes.broken_eq_nil (fun n dangles => silent n dangles.1) ?_
    rintro reference ⟨o, ho, -⟩
    exact List.not_mem_nil (bare ▸ ho)

end ApiCanon.OpenApi
