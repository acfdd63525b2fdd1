import Attestation.Certificate.Extension
import Attestation.Signature
import Attestation.Verification.Verdict

/-!
# Verifying attestations of Android keys

The certificate of the credential key signs the signed data with that key, and its key description
has the client data as challenge and says that the key was generated in the keystore, for signing,
and for one application.
-/

namespace Attestation

namespace KeyDescription

/-- The origin of a key that was generated in the keystore. -/
def generatedOrigin : Int := 0

/-- The purpose of signing. -/
def signingPurpose : Int := 2

/-- The key was generated in the keystore. What the trusted environment says of the origin goes
before what software says, which does not count where `teeOnly` holds. -/
def isGenerated (d : KeyDescription) (teeOnly : Bool) : Bool :=
  let origin :=
    if teeOnly then d.teeEnforced.origin else d.teeEnforced.origin.or d.softwareEnforced.origin
  origin == some generatedOrigin

/-- The key may sign. What software says does not count where `teeOnly` holds. -/
def isSigning (d : KeyDescription) (teeOnly : Bool) : Bool :=
  d.teeEnforced.purposes.contains signingPurpose ||
    (!teeOnly && d.softwareEnforced.purposes.contains signingPurpose)

/-- Checks the description of a key that has to be bound to the given client data. -/
def check (d : KeyDescription) (teeOnly : Bool) (clientDataHash : Bytes) : Result Unit := do
  ensure (d.challenge == clientDataHash) (.digestMismatch .attestationChallenge)
  ensure (!(d.softwareEnforced.allApplications || d.teeEnforced.allApplications))
    (.structuralMismatch .boundToAllApplications)
  ensure (d.isGenerated teeOnly) (.structuralMismatch .originNotGenerated)
  ensure (d.isSigning teeOnly) (.structuralMismatch .purposeNotSigning)

end KeyDescription

namespace AndroidKeyStatement

/-- Verifies a registration with the statement. -/
def verify (teeOnly : Bool) (s : AndroidKeyStatement) (r : Registration) : Result Verdict := do
  let credential ← r.credential
  let leaf ← leafCertificate s.certificates
  let key ← leaf.publicKey
  let alg ← Algorithm.ofId s.alg
  alg.verify key r.signedData s.signature
  ensure (← credential.key.denotes key) (.keyMismatch .attestationCertificate)
  let description ← leaf.keyDescription
  description.check teeOnly r.clientDataHash
  return ⟨.basic, some s.certificates⟩

end AndroidKeyStatement

end Attestation
