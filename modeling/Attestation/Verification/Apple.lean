import Attestation.Certificate.Extension
import Attestation.Digest
import Attestation.Verification.Verdict

/-!
# Verifying anonymous attestations by Apple

The certificate is made for this registration alone: its nonce is the hash of the signed data, and
its key is the credential key.
-/

namespace Attestation

namespace AppleStatement

/-- Verifies a registration with the statement. -/
def verify (s : AppleStatement) (r : Registration) : Result Verdict := do
  let credential ← r.credential
  let leaf ← leafCertificate s.certificates
  let nonce ← leaf.appleNonce
  ensure (nonce == Digest.sha256.hash r.signedData) (.digestMismatch .appleNonce)
  let key ← leaf.publicKey
  ensure (← credential.key.denotes key) (.keyMismatch .credentialCertificate)
  return ⟨.anonCa, some s.certificates⟩

end AppleStatement

end Attestation
