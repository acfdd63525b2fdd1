import Attestation.Signature
import Attestation.Tpm.Attest
import Attestation.Tpm.Device
import Attestation.Tpm.PublicArea
import Attestation.Verification.Verdict

/-!
# Verifying attestations of a TPM

The public area is the one of the credential key, the TPM certifies an object of that name and has
put the hash of the signed data into the attestation, and a certified attestation key has signed it.
-/

namespace Attestation

namespace TpmStatement

/-- The version of TPMs that is verified here. -/
def supportedVersion : String := "2.0"

/-- The area describes the credential key. -/
def checkKey (key : CredentialKey) (area : Tpm.PublicArea) : Result Unit := do
  let denoted ← match area.key? with
    | some described => key.denotes described
    | none => pure false
  ensure denoted (.keyMismatch .pubArea)

/-- The object that is certified. -/
def certified : Tpm.Attested → Result Tpm.CertifyInfo
  | .certify info => .ok info
  | .other _ => .error (.structuralMismatch .notCertifyInfo)

/-- The hash function that a certified object is named by. -/
def nameDigest (info : Tpm.CertifyInfo) : Result Digest :=
  match Tpm.digestOfId? info.nameAlg with
  | some digest => .ok digest
  | none => .error (.unsupportedAlgorithm (.tpmName info.nameAlg))

/-- The attestation binds the signed data and certifies the object with the given public area. -/
def checkAttest (attest : Tpm.Attest) (alg : Int) (signedData pubArea : Bytes) : Result Unit := do
  ensure (attest.magic == Tpm.Attest.generatedMagic)
    (.structuralMismatch (.tpmMagic attest.magic))
  ensure (attest.type == Tpm.Attest.certifyType) (.structuralMismatch (.tpmType attest.type))
  let alg ← Algorithm.ofId alg
  let expected ← alg.hash signedData
  ensure (attest.extraData == expected) (.digestMismatch .extraData)
  let info ← certified attest.attested
  let digest ← nameDigest info
  ensure (info.nameDigest == digest.hash pubArea) (.digestMismatch .certifiedName)

/-- The certificates of the attestation key. -/
def attestationCertificates (s : TpmStatement) : Result (List Bytes) :=
  match s.certificates, s.keyIdentifier with
  | some certificates, _ => .ok certificates
  | none, some _ => .error (.unsupportedAlgorithm .ecdaa)
  | none, none => .error (.missingStatement .attestationKey)

/-- The model in the certificate, if it names one, is the given one. -/
def checkAaguid (c : Certificate) (aaguid : Bytes) : Result Unit := do
  match ← c.aaguid with
  | none => return ()
  | some found => Certificate.require (found.aaguid == aaguid) .aaguidMismatch

/-- Verifies a registration with the statement. -/
def verify (policy : TpmDevicePolicy) (s : TpmStatement) (r : Registration) :
    Result Verdict := do
  let certInfo ← orError (.missingStatement .certInfo) s.certInfo
  let pubArea ← orError (.missingStatement .pubArea) s.pubArea
  ensure (s.version == supportedVersion) (.unsupportedVersion (.tpm s.version))
  let credential ← r.credential
  checkKey credential.key (← Tpm.PublicArea.parse pubArea)
  checkAttest (← Tpm.Attest.parse certInfo) s.alg r.signedData pubArea
  let certificates ← s.attestationCertificates
  let leaf ← leafCertificate certificates
  let key ← leaf.publicKey
  let alg ← Algorithm.ofId s.alg
  alg.verify key certInfo s.signature
  leaf.checkAttestationKey policy
  checkAaguid leaf credential.aaguid
  return ⟨.attCa, some certificates⟩

end TpmStatement

end Attestation
