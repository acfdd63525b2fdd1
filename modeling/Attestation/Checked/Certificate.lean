import Attestation.Checked
import Attestation.Tpm.Device
import Attestation.Verification.Packed

/-!
# Checking certificates with a checked sum

A certificate encodes its version as one less than it is. The one is added only where the version is
wrong, to name the version in the message, which is written before the certificate is refused. The
other checks are those of `Certificate.checkAuthenticator` and `Certificate.checkAttestationKey`.
-/

namespace Attestation.Certificate.Checked

/-- The message for another version than 3, from the encoded version. -/
def versionText (encoded : UInt32) : Checked String := do
  let found ← Checked.add32 encoded 1
  return s!"Certificate version must be 3, found {found.toNat}"

/-- Refuses a certificate of another version than 3. -/
def requireVersion3 (c : Certificate) : CheckedResult Unit :=
  if c.version = version3 then return ()
  else do
    let _ ← versionText c.version
    throw (.certificateInvalid (.version c.version))

/-- Checks the certificate of an authenticator of the given model. -/
def checkAuthenticator (c : Certificate) (aaguid : Bytes) : CheckedResult Unit := do
  requireVersion3 c
  Checked.ofResult (discard <| c.subjectAttribute NameAttribute.country "C")
  Checked.ofResult (discard <| c.subjectAttribute NameAttribute.organization "O")
  Checked.ofResult (discard <| c.subjectAttribute NameAttribute.commonName "CN")
  let unit ← Checked.ofResult (c.subjectAttribute NameAttribute.organizationalUnit "OU")
  let unit ← Checked.ofResult (orFault .organizationalUnitText unit.text?)
  Checked.ofResult (require (unit == authenticatorUnit) (.organizationalUnit unit))
  Checked.ofResult c.requireNotAuthority
  Checked.ofResult (c.checkAaguid aaguid)

/-- Checks the certificate of an attestation key. -/
def checkAttestationKey (policy : TpmDevicePolicy) (c : Certificate) : CheckedResult Unit := do
  requireVersion3 c
  Checked.ofResult (require c.subject.isEmpty .subjectNotEmpty)
  let device ← Checked.ofResult c.tpmDevice
  Checked.ofResult (policy.check device)
  let usages ← Checked.ofResult c.usages
  let usages ← Checked.ofResult (orFault .noKeyUsage usages)
  Checked.ofResult (require (usages.contains attestationKeyUsage) .noAikUsage)
  Checked.ofResult c.requireNotAuthority

end Attestation.Certificate.Checked
