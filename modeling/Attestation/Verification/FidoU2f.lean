import Attestation.Signature
import Attestation.Verification.Verdict

/-!
# Verifying attestations of security keys

The one certificate has a key on P-256, and signs a message that binds the relying party, the client
data, and identifier and point of the credential, which is on P-256 too.
-/

namespace Attestation

namespace FidoU2fStatement

/-- The length of a coordinate in the message. -/
def coordinateLength : Nat := 32

/-- The coordinates of the credential key. -/
def coordinates : CredentialKey → Result (Bytes × Bytes)
  | .ec2 _ .p256 x y =>
    if x.length = coordinateLength ∧ y.length = coordinateLength then .ok (x, y)
    else .error (.unsupportedAlgorithm .securityKeyCoordinates)
  | _ => .error (.unsupportedAlgorithm .securityKeyCredential)

/-- The message that is signed. -/
def message (rpIdHash clientDataHash credentialId x y : Bytes) : Bytes :=
  0x00 :: (rpIdHash ++ clientDataHash ++ credentialId ++ 0x04 :: (x ++ y))

/-- Refuses a key that is not on P-256. -/
def checkKey : PublicKey → Result Unit
  | .ec .p256 _ _ => .ok ()
  | key => .error (.certificateInvalid (.securityKeyKind key.kind))

/-- Verifies a registration with the statement. -/
def verify (s : FidoU2fStatement) (r : Registration) : Result Verdict := do
  Certificate.require (s.certificates.length == 1) (.certificateCount s.certificates.length)
  let leaf ← leafCertificate s.certificates
  let key ← leaf.publicKey
  checkKey key
  let credential ← r.credential
  let (x, y) ← coordinates credential.key
  let signed := message r.object.authData.rpIdHash r.clientDataHash credential.id x y
  Algorithm.es256.verify key signed s.signature
  return ⟨.basic, some s.certificates⟩

end FidoU2fStatement

end Attestation
