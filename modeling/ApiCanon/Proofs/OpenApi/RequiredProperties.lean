import ApiCanon.Proofs.OpenApi.ComposedReferences

/-!
# Required properties of compositions

A schema object lists the names of the properties that it requires, and so does each of the parts
that it is composed of.  The properties are gathered from the parts at every depth, but of the lists
only those of the object itself and of its immediate parts count (`required_buildSchema_iff`).

So the lists of a composition come together at every depth exactly if whatever is required further
down is also required further up (`required_properties_iff`).  Where the parts have no parts it
always is; `not_required_of_nested` is a document where it is not.
-/

namespace ApiCanon.OpenApi

open Json (Value Fields)
open Relation (ReflTransGen)

/-! ## Lists of required names -/

/-- A schema object has a name in its list of required properties. -/
def Requires (v : Value) (k : String) : Prop := k ∈ v.stringsField "required"

/-- A schema object requires a property itself, or an immediate part of it does. -/
def RequiresNearby (raw : Value) (k : String) : Prop :=
  Requires raw k ∨ ∃ w, HasPart raw w ∧ Requires w k

/-- Somewhere in a composition, at whatever depth, a property is required. -/
def RequiresAnywhere (raw : Value) (k : String) : Prop :=
  ∃ w, ReflTransGen HasPart raw w ∧ Requires w k

/-- Somewhere in a composition, at whatever depth, a property is defined. -/
def DefinesAnywhere (raw : Value) (k : String) : Prop :=
  ∃ w s, ReflTransGen HasPart raw w ∧ (k, s) ∈ ownDefinitions w

/-- What is defined in a composition and required in it is required nearby. -/
def ListsNearby (raw : Value) : Prop :=
  ∀ k, DefinesAnywhere raw k → RequiresAnywhere raw k → RequiresNearby raw k

section Lists

variable {raw : Value} {k : String}

lemma RequiresNearby.anywhere (h : RequiresNearby raw k) : RequiresAnywhere raw k := by
  rcases h with own | ⟨w, part, listed⟩
  · exact ⟨raw, .refl, own⟩
  · exact ⟨w, .single part, listed⟩

/-- Where the parts are not composed in turn, nothing is far. -/
lemma listsNearby_of_flat (flat : ∀ w, HasPart raw w → partsOf w = []) : ListsNearby raw := by
  rintro k - ⟨w, chain, listed⟩
  rcases chain.cases_head with rfl | ⟨part, first, rest⟩
  · exact .inl listed
  · rcases rest.cases_head with rfl | ⟨u, second, -⟩
    · exact .inr ⟨part, first, listed⟩
    · rw [HasPart, flat part first] at second
      cases second

lemma mem_requiredNames_iff : k ∈ requiredNames raw ↔ RequiresNearby raw k := by
  rw [requiredNames, List.mem_append, List.mem_flatMap]
  rfl

/-- The names of the definitions of a composition are those that it defines somewhere. -/
lemma definesAnywhere_iff : DefinesAnywhere raw k ↔ ∃ s, (k, s) ∈ composed raw := by
  simp only [mem_composed_iff]
  exact exists_comm

end Lists

/-! ## Properties -/

/-- A schema has a property for each name that is defined in its composition. -/
lemma exists_get?_buildSchema_iff (name : String) (raw : Value) (k : String) :
    (∃ p, (buildSchema name raw).properties.get? k = some p) ↔ DefinesAnywhere raw k := by
  rw [definesAnywhere_iff]
  constructor
  · rintro ⟨p, found⟩
    obtain ⟨s, last, -⟩ := (get?_buildSchema_eq_some_iff name raw k p).1 found
    exact ⟨s, lastsBy_subset Prod.fst _ last⟩
  · rintro ⟨s, defined⟩
    have listed : k ∈ (lastsBy Prod.fst (composed raw)).map Prod.fst :=
      (mem_map_lastsBy_iff Prod.fst _ k).2 (List.mem_map.2 ⟨(k, s), defined, rfl⟩)
    obtain ⟨⟨_, t⟩, last, rfl⟩ := List.mem_map.1 listed
    exact ⟨_, (get?_buildSchema_eq_some_iff name raw _ _).2 ⟨t, last, rfl⟩⟩

/-- A property is required if the object or an immediate part of it says so. -/
lemma required_buildSchema_iff {name : String} {raw : Value} {k : String} {p : Property}
    (found : (buildSchema name raw).properties.get? k = some p) :
    p.required = true ↔ RequiresNearby raw k := by
  obtain ⟨s, -, rfl⟩ := (get?_buildSchema_eq_some_iff name raw k p).1 found
  rw [List.contains_iff_mem, mem_requiredNames_iff]

/-- The lists of a composition come together: a property is required if its name is in some of
them. -/
def Unites (raw : Value) (x : Schema) : Prop :=
  ∀ k p, x.properties.get? k = some p → (p.required = true ↔ RequiresAnywhere raw k)

lemma unites_buildSchema_iff (name : String) (raw : Value) :
    Unites raw (buildSchema name raw) ↔ ListsNearby raw := by
  constructor
  · intro unites k defined required
    obtain ⟨p, found⟩ := (exists_get?_buildSchema_iff name raw k).2 defined
    exact (required_buildSchema_iff found).1 ((unites k p found).2 required)
  · intro near k p found
    have defined := (exists_get?_buildSchema_iff name raw k).1 ⟨p, found⟩
    exact (required_buildSchema_iff found).trans ⟨RequiresNearby.anywhere, near k defined⟩

/-- **Which properties of a composition are required.**  In the description of every document, a
schema has the properties that are defined in its composition at whatever depth, and those are
required that its object or an immediate part lists.  These are the properties that some part at
whatever depth lists if and only if each of them is listed nearby, as it is where the parts have no
parts. -/
theorem required_properties_iff [Grammars] (now : Timestamp) {q : ReadRequest} {doc : Value}
    {v : Version} (h : Opens q doc v) : ∃ a, (Registry.defaults.read now q).ast = some a ∧
      ∀ name raw, Fields.get? name (definitions doc v) = some raw →
        ∃ x, a.schemas.get? name = some x ∧
          (∀ k, (∃ p, x.properties.get? k = some p) ↔ DefinesAnywhere raw k) ∧
          (∀ k p, x.properties.get? k = some p → (p.required = true ↔ RequiresNearby raw k)) ∧
          (Unites raw x ↔ ListsNearby raw) ∧
          ((∀ w, HasPart raw w → partsOf w = []) → Unites raw x) := by
  obtain ⟨a, describes⟩ := describes_of_opens now h
  refine ⟨a, describes.ast, fun name raw has => ⟨buildSchema name raw, ?_, ?_⟩⟩
  · rw [describes.schemas, has, Option.map_some]
  · have unites := unites_buildSchema_iff name raw
    exact ⟨exists_get?_buildSchema_iff name raw, fun k p => required_buildSchema_iff, unites,
      fun flat => unites.2 (listsNearby_of_flat flat)⟩

/-! ## Documents -/

/-- A document with a schema `Dog` that requires what a part of its part defines and requires. -/
def chipText : String :=
  "\x7b\"openapi\":\"3\",\"components\":\x7b\"schemas\":\x7b\"Dog\":\x7b\"required\":[\"chip\"]," ++
    "\"allOf\":[\x7b\"allOf\":[\x7b\"required\":[\"chip\"],\"properties\":\x7b\"chip\":" ++
    "\x7b\"type\":\"string\"\x7d\x7d\x7d]\x7d]\x7d\x7d\x7d\x7d"

/-- A schema object with a property that it requires. -/
def chipPart : Value :=
  .object [("required", .array [.string "chip"]),
    ("properties", .object [("chip", .object [("type", .string "string")])])]

/-- The part of a part brings the property, and the object on top requires it, too. -/
def chipSchema : Value :=
  .object [("required", .array [.string "chip"]), ("allOf", .array [composedOf chipPart])]

/-- A document with nothing but the schema object of `Dog`. -/
def dogDocument (raw : Value) : Value :=
  .object [("openapi", .string "3"), ("components", .object [("schemas", .object [("Dog", raw)])])]

/-- What a schema requires itself may be required further down as well. -/
theorem required_properties_iff_chip : Opens (requestFor chipText) (dogDocument chipSchema) .three ∧
    ∃ a x p, (Registry.defaults.read ⟨0, 0⟩ (requestFor chipText)).ast = some a ∧
      a.schemas.get? "Dog" = some x ∧ x.properties.get? "chip" = some p ∧ p.required = true ∧
      Unites chipSchema x := by
  have opens : Opens (requestFor chipText) (dogDocument chipSchema) .three :=
    opens_requestFor (by decide +kernel)
  obtain ⟨a, read, schemas⟩ := required_properties_iff ⟨0, 0⟩ opens
  obtain ⟨x, found, defined, required, unites, -⟩ :=
    schemas "Dog" chipSchema (by decide +kernel)
  have outer : HasPart chipSchema (composedOf chipPart) := List.mem_singleton.2 rfl
  have inner : HasPart (composedOf chipPart) chipPart := List.mem_singleton.2 rfl
  obtain ⟨p, property⟩ := (defined "chip").2
    ⟨chipPart, _, (ReflTransGen.single outer).tail inner, List.mem_singleton.2 rfl⟩
  have own : Requires chipSchema "chip" := List.mem_singleton.2 rfl
  refine ⟨opens, a, x, p, read, found, property, (required _ p property).2 (.inl own), ?_⟩
  refine unites.2 fun k ⟨w, s, chain, defines⟩ _ => ?_
  have only : k = "chip" := by
    rcases chain.cases_head with rfl | ⟨u, first, rest⟩
    · cases defines
    · obtain rfl := List.mem_singleton.1 first
      rcases rest.cases_head with rfl | ⟨t, second, rest⟩
      · cases defines
      · obtain rfl := List.mem_singleton.1 second
        rcases rest.cases_head with rfl | ⟨_, third, -⟩
        · exact (Prod.mk.inj (List.mem_singleton.1 defines)).1
        · cases third
  exact only ▸ .inl own

/-- A document with a schema `Dog` of which only a part of its part requires what it defines. -/
def nestedText : String :=
  "\x7b\"openapi\":\"3\",\"components\":\x7b\"schemas\":\x7b\"Dog\":\x7b\"allOf\":[\x7b\"allOf\":[" ++
    "\x7b\"required\":[\"chip\"],\"properties\":\x7b\"chip\":\x7b\"type\":\"string\"\x7d\x7d\x7d]" ++
    "\x7d]\x7d\x7d\x7d\x7d"

/-- **A property is not required by a part of a part.**  It is a property of the schema all the
same. -/
theorem not_required_of_nested : ∃ a x p,
    (Registry.defaults.read ⟨0, 0⟩ (requestFor nestedText)).ast = some a ∧
      a.schemas.get? "Dog" = some x ∧ x.properties.get? "chip" = some p ∧ p.required = false ∧
      RequiresAnywhere (composedOf (composedOf chipPart)) "chip" := by
  have opens :
      Opens (requestFor nestedText) (dogDocument (composedOf (composedOf chipPart))) .three :=
    opens_requestFor (by decide +kernel)
  obtain ⟨a, describes⟩ := describes_of_opens ⟨0, 0⟩ opens
  have has :
      Fields.get? "Dog" (definitions (dogDocument (composedOf (composedOf chipPart))) .three) =
        some (composedOf (composedOf chipPart)) := by decide +kernel
  have found : a.schemas.get? "Dog" =
      some (buildSchema "Dog" (composedOf (composedOf chipPart))) := by
    rw [describes.schemas, has, Option.map_some]
  have chain : ReflTransGen HasPart (composedOf (composedOf chipPart)) chipPart :=
    .tail (.single (List.mem_singleton.2 rfl)) (List.mem_singleton.2 rfl)
  obtain ⟨p, property⟩ := (exists_get?_buildSchema_iff "Dog" _ "chip").2
    ⟨chipPart, _, chain, List.mem_singleton.2 rfl⟩
  refine ⟨a, _, p, describes.ast, found, property, ?_, chipPart, chain, List.mem_singleton.2 rfl⟩
  refine Bool.eq_false_iff.2 fun required => ?_
  rcases (required_buildSchema_iff property).1 required with own | ⟨w, part, listed⟩
  · cases own
  · obtain rfl := List.mem_singleton.1 part
    cases listed

end ApiCanon.OpenApi
