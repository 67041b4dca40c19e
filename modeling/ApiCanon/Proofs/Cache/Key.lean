import ApiCanon.Cache.Key
import ApiCanon.Proofs.Json.Canonical
import ApiCanon.Proofs.Text.Utf8

/-!
# What a key tells

A key is its name and two digests of 64 digits, so that it can be taken apart from its end
(`compose_injective`), whatever colons the name has.  What has been digested can be told only if
digests do not collide; `CollisionFree` says so of the contents in question.  Then a key tells
the name, the contents and the canonical form of the configuration (`derive_injective`).
-/

namespace ApiCanon

open Json (Value)

/-- No two of the contents have one digest. -/
def CollisionFree (contents : List Bytes) : Prop :=
  ∀ a ∈ contents, ∀ b ∈ contents, Sha256.hex a = Sha256.hex b → a = b

lemma CollisionFree.mono {l m : List Bytes} (h : CollisionFree m) (sub : l ⊆ m) :
    CollisionFree l :=
  fun a ha b hb => h a (sub ha) b (sub hb)

lemma CollisionFree.of_eq {a b : Bytes} (same : a = b) : CollisionFree [a, b] := by
  subst same
  intro c hc d hd _
  rw [List.mem_pair] at hc hd
  exact (hc.elim id id).trans (hd.elim id id).symm

namespace CacheKey

/-- The bytes that are digested for a configuration or a context. -/
def valueBytes (v : Option Value) : Bytes := Bytes.ofString (v.getD .null).canonicalText

/-- A key falls into its parts, as the digests are of one length. -/
theorem compose_injective {name name' : String} {a b a' b' : Bytes}
    (h : compose name (Sha256.hex a) (Sha256.hex b) =
      compose name' (Sha256.hex a') (Sha256.hex b')) :
    name = name' ∧ Sha256.hex a = Sha256.hex a' ∧ Sha256.hex b = Sha256.hex b' := by
  have length : ∀ c d : Bytes, (Sha256.hex c).toList.length = (Sha256.hex d).toList.length := by
    intro c d
    rw [String.length_toList, String.length_toList, Sha256.length_hex, Sha256.length_hex]
  have chars := congrArg String.toList h
  simp only [compose, String.toList_append] at chars
  obtain ⟨front, second⟩ := List.append_inj' chars (length b b')
  obtain ⟨front, -⟩ := List.append_inj' front rfl
  obtain ⟨front, first⟩ := List.append_inj' front (length a a')
  obtain ⟨front, -⟩ := List.append_inj' front rfl
  exact ⟨String.toList_injective front, String.toList_injective first,
    String.toList_injective second⟩

/-- A key does not tell more of a context than its canonical text. -/
lemma enhancement_congr {e : Endpoint} {c d : Value} (same : c.canonicalText = d.canonicalText) :
    enhancement e (some c) = enhancement e (some d) := by
  have digest : valueDigest (some c) = valueDigest (some d) :=
    congrArg (fun s => Sha256.hex (Bytes.ofString s)) same
  rw [enhancement, enhancement, digest]

/-- The key of a reading tells its source type, its contents and its configuration up to the order
of fields. -/
theorem derive_injective {tag tag' : String} {b b' : Bytes} {c d : Option Value}
    (contents : CollisionFree [b, b']) (configs : CollisionFree [valueBytes c, valueBytes d])
    (hc : (c.getD .null).Distinct) (hc' : (c.getD .null).Exact) (hd : (d.getD .null).Distinct)
    (hd' : (d.getD .null).Exact) (h : derive tag b c = derive tag' b' d) :
    tag = tag' ∧ b = b' ∧ (c.getD .null).canonicalize = (d.getD .null).canonicalize := by
  obtain ⟨name, first, second⟩ := compose_injective h
  have bytes := configs (valueBytes c) (by simp) (valueBytes d) (by simp) second
  exact ⟨name, contents b (by simp) b' (by simp) first,
    Value.canonicalize_eq_of_canonicalText_eq hc hc' hd hd' (Bytes.ofString_injective bytes)⟩

end CacheKey

end ApiCanon
