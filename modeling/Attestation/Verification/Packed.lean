import Attestation.Certificate.Extension
import Attestation.Signature
import Attestation.Verification.Verdict

/-!
# Verifying packed attestations

The signature is one of the signed data, either under the key of a certificate, which then has to
name an authenticator, or under the credential key itself.
-/

namespace Attestation

namespace Certificate

/-- The organizational unit of the certificates of authenticators. -/
def authenticatorUnit : String := "Authenticator Attestation"

/-- The first attribute of the given type of the subject; `name` is its short name. -/
def subjectAttribute (c : Certificate) (id : Bytes) (name : String) : Result NameAttribute :=
  orFault (.subjectLacks name) (c.subject.first? id)

/-- The model in the certificate, if it names one, is the given one and not critical. -/
def checkAaguid (c : Certificate) (aaguid : Bytes) : Result Unit := do
  match ← c.aaguid with
  | none => return ()
  | some found =>
    require (!found.critical) .aaguidCritical
    require (found.aaguid == aaguid) .aaguidMismatch

/-- Checks the certificate of an authenticator of the given model. -/
def checkAuthenticator (c : Certificate) (aaguid : Bytes) : Result Unit := do
  c.requireVersion3
  discard <| c.subjectAttribute NameAttribute.country "C"
  discard <| c.subjectAttribute NameAttribute.organization "O"
  discard <| c.subjectAttribute NameAttribute.commonName "CN"
  let unit ← c.subjectAttribute NameAttribute.organizationalUnit "OU"
  let unit ← orFault .organizationalUnitText unit.text?
  require (unit == authenticatorUnit) (.organizationalUnit unit)
  c.requireNotAuthority
  c.checkAaguid aaguid

end Certificate

namespace PackedStatement

/-- Verifies an attestation by the key of a certificate. -/
def verifyCertified (s : PackedStatement) (r : Registration) (credential : AttestedCredential)
    (alg : Algorithm) (certificates : List Bytes) : Result Verdict := do
  let leaf ← leafCertificate certificates
  let key ← leaf.publicKey
  alg.verify key r.signedData s.signature
  leaf.checkAuthenticator credential.aaguid
  return ⟨.basic, some certificates⟩

/-- Verifies an attestation by the credential key. -/
def verifySelf (s : PackedStatement) (r : Registration) (credential : AttestedCredential)
    (alg : Algorithm) : Result Verdict := do
  ensure (credential.key.alg == some s.alg)
    (.keyMismatch (.selfAlgorithm s.alg credential.key.alg))
  alg.verify (.ofCredential credential.key) r.signedData s.signature
  return ⟨.selfAttestation, none⟩

/-- Verifies a registration with the statement. -/
def verify (s : PackedStatement) (r : Registration) : Result Verdict := do
  let credential ← r.credential
  let alg ← Algorithm.ofId s.alg
  match s.certificates, s.keyIdentifier with
  | some certificates, none => s.verifyCertified r credential alg certificates
  | none, some _ => throw (.unsupportedAlgorithm .ecdaa)
  | none, none => s.verifySelf r credential alg
  | some _, some _ => throw (.structuralMismatch .certificatesAndKeyIdentifier)

end PackedStatement

end Attestation
