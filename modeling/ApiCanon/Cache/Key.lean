import ApiCanon.Digest.Sha256
import ApiCanon.Json.Printer
import ApiCanon.Model.Encode
import ApiCanon.Text.Search

/-!
# Keys of the cache

A key is a name and two digests with colons between them.  For a reading: the tag of the source
type, the contents and the configuration.  For a written description: the word `enhance`, the
endpoint and the context.  Values are digested in canonical form, so that the order of fields
does not matter, and a missing configuration counts as null.
-/

namespace ApiCanon.CacheKey

open Json (Value)

/-- The digest of a configuration or a context. -/
def valueDigest (v : Option Value) : String :=
  Sha256.hex (Bytes.ofString (v.getD .null).canonicalText)

/-- A name and two digests. -/
def compose (name first second : String) : String := name ++ ":" ++ first ++ ":" ++ second

/-- The key of a reading. -/
def derive (tag : String) (source : Bytes) (config : Option Value) : String :=
  compose tag (Sha256.hex source) (valueDigest config)

/-- The key of a description written for an endpoint. -/
def enhancement (e : Endpoint) (context : Option Value) : String :=
  compose "enhance" (Sha256.hex (Bytes.ofString e.toJson.canonicalText)) (valueDigest context)

/-- The part of a key in front of its first colon. -/
def keySpace (key : String) : String :=
  match Text.splitAtFirst? (· == ':') key.toList with
  | some (a, _) => String.ofList a
  | none => key

end ApiCanon.CacheKey
