import CredentialSchema.Digest.Sha256
import CredentialSchema.Json.Canonical
import CredentialSchema.Text.Digits

/-!
Content digests: the fingerprint of a document is the SHA-256 of its canonical bytes, so two
documents that differ only in member order have one digest.
-/
namespace CredentialSchema

structure ContentDigest where
  bytes : List UInt8
deriving DecidableEq, Repr

namespace ContentDigest

def ofValue (v : Json.Value) : ContentDigest := ⟨Sha256.hash v.canonicalBytes⟩

def hex (d : ContentDigest) : String :=
  .ofList (d.bytes.flatMap fun b => Text.hexDigits 2 b.toNat)

def text (d : ContentDigest) : String := "sha256:" ++ d.hex

end ContentDigest
end CredentialSchema
