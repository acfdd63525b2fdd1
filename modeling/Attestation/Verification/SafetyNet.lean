import Attestation.Config
import Attestation.SafetyNet.Response
import Attestation.SafetyNet.Token
import Attestation.Verification.Verdict

/-!
# Verifying responses of the attestation service

The response is a token that the key of a certificate has signed, the certificate is the one of the
service, and the claims of the response have the hash of the signed data as nonce, say that the
device passes, and are not too far from the present.
-/

namespace Attestation

namespace SafetyNetStatement

/-- The common name in the certificate of the service. -/
def hostName : String := "attest.android.com"

/-- The certificates of the signer. -/
def certificates (header : SafetyNet.TokenHeader) : Result (List Bytes) := do
  match header.certificates with
  | none => throw (.missingStatement .tokenCertificateList)
  | some texts =>
    match texts.mapM fun s => Base64.decode Base64.standard (Bytes.ofText s) with
    | some certificates => return certificates
    | none => throw (.malformedInput .tokenCertificate)

/-- The certificate of the signer. -/
def signerCertificate (certificates : List Bytes) : Result Certificate :=
  match certificates with
  | der :: _ => Certificate.parse der
  | [] => .error (.missingStatement .tokenCertificates)

/-- The certificate is the one of the service. -/
def isOfService (c : Certificate) : Bool :=
  (c.subject.first? NameAttribute.commonName).bind NameAttribute.text? == some hostName

/-- Checks the claims of a response to a registration. -/
def checkResponse (config : Config) (now : Instant) (r : Registration)
    (response : SafetyNet.Response) : Result Unit := do
  ensure (response.hasNonce (Digest.sha256.hash r.signedData)) (.digestMismatch .safetyNetNonce)
  ensure response.profileMatches (.structuralMismatch .profileMismatch)
  SafetyNet.checkTimestamp now config.backward config.forward response.timestamp

/-- Verifies a registration with the statement. -/
def verify (config : Config) (now : Instant) (s : SafetyNetStatement) (r : Registration) :
    Result Verdict := do
  discard r.credential
  ensure (s.version != "") (.unsupportedVersion .emptySafetyNet)
  ensure s.response.toText?.isSome (.malformedInput .responseText)
  let (token, header) ← SafetyNet.Token.parse s.response
  let certificates ← certificates header
  let leaf ← signerCertificate certificates
  token.verify header.alg (← leaf.publicKey)
  Certificate.require (isOfService leaf) .hostName
  checkResponse config now r (← SafetyNet.Response.ofPayload token.payload)
  return ⟨.basic, some certificates⟩

end SafetyNetStatement

end Attestation
