import Attestation.Algorithm.Basic
import Attestation.Calendar
import Attestation.Curve
import Attestation.Format
import Attestation.SafetyNet.TokenAlgorithm

/-!
# Why a registration is refused

An `Error` has a kind, and under each kind the causes that can arise; `Error.message` words them. A
verifier may be given validators from outside, so every kind also has the cause `custom`, with a
reason in the validator's own words. A fault inside a certificate, a CBOR item or a token is named
for the part that it spoils, without further detail.
-/

namespace Attestation

/-- The families of public keys that a signature may be verified with. -/
inductive KeyKind where
  | rsa
  | ec
  | ed25519
  deriving DecidableEq, Repr

/-- The kind with its article, as messages name it. -/
def KeyKind.withArticle : KeyKind → String
  | .rsa => "an RSA"
  | .ec => "an EC"
  | .ed25519 => "an Ed25519"

/-- What a statement lacks. -/
inductive MissingPart where
  /-- A field of the statement or of the attestation object. -/
  | field (name : String)
  | certInfo
  | pubArea
  /-- A TPM statement names no attestation key, neither by certificate nor by identifier. -/
  | attestationKey
  /-- The certificate list is empty. -/
  | certificates
  /-- The header of the signed response has no certificate list. -/
  | tokenCertificateList
  /-- The certificate list of the signed response is empty. -/
  | tokenCertificates
  /-- The statement is not one of the format that it is verified for. -/
  | otherStatement (expected : Format)
  | custom (reason : String)
  deriving DecidableEq, Repr

/-- A version that is not verified here. -/
inductive VersionFault where
  | tpm (version : String)
  | emptySafetyNet
  | custom (reason : String)
  deriving DecidableEq, Repr

/-- Parts that are well-formed but do not go together. -/
inductive StructureFault where
  | noneNotEmpty
  | tpmMagic (found : UInt32)
  | tpmType (found : UInt16)
  | notCertifyInfo
  | certificatesAndKeyIdentifier
  | boundToAllApplications
  | originNotGenerated
  | purposeNotSigning
  | profileMismatch
  | custom (reason : String)
  deriving DecidableEq, Repr

/-- A digest that is not the one of what it should bind. -/
inductive DigestFault where
  | extraData
  | certifiedName
  | appleNonce
  | safetyNetNonce
  | attestationChallenge
  | custom (reason : String)
  deriving DecidableEq, Repr

/-- A credential key that is not the one attested. -/
inductive KeyFault where
  | pubArea
  | attestationCertificate
  | credentialCertificate
  /-- A self attestation names another algorithm than the credential key. -/
  | selfAlgorithm (statement : Int) (key : Option Int)
  /-- Only a key on a curve has a point. -/
  | notOnCurve (kind : KeyKind)
  | custom (reason : String)
  deriving DecidableEq, Repr

/-- Why a signature is refused. -/
inductive SignatureFault where
  | rejected (alg : Algorithm)
  | curve (alg : Algorithm) (found : Curve)
  | key (alg : Algorithm) (found : KeyKind)
  | tokenRejected
  | tokenKey (alg : SafetyNet.TokenAlgorithm) (found : KeyKind)
  | custom (reason : String)
  deriving DecidableEq, Repr

/-- Why a certificate is refused. -/
inductive CertificateFault where
  | unreadable
  | trailingBytes
  /-- The version is not 3; it is encoded as the number below it. -/
  | version (encoded : UInt32)
  | basicConstraints
  | authority
  | publicKey
  | compressedPoint
  | coordinateLength (length : Nat)
  | keyKind
  | aaguidShape
  | aaguidLength
  | aaguidMismatch
  | aaguidCritical
  | alternativeName
  | noAlternativeName
  /-- A TPM attribute has this tag instead of the one of a UTF-8 text. -/
  | attributeTag (tag : Nat)
  | attributeText
  | incompleteDevice
  | subjectNotEmpty
  | keyUsage
  | noKeyUsage
  | noAikUsage
  | noAppleNonce
  | appleNonce
  | appleNonceMissing
  | noKeyDescription
  | keyDescription
  | keyDescriptionTrailing
  | subjectLacks (name : String)
  | organizationalUnitText
  | organizationalUnit (found : String)
  | certificateCount (found : Nat)
  | securityKeyKind (found : KeyKind)
  | hostName
  | custom (reason : String)
  deriving DecidableEq, Repr

/-- An algorithm, curve or kind of key that is not supported. -/
inductive AlgorithmFault where
  | unknown (id : Int)
  | noDigest
  | es512
  | ecCurve (id : Int)
  | octetKeyCurve
  | keyType (id : Int)
  | tpmName (id : UInt16)
  | ecdaa
  | securityKeyCredential
  | securityKeyCoordinates
  | custom (reason : String)
  deriving DecidableEq, Repr

/-- A format that is not verified here, or not the one of the statement. -/
inductive FormatFault where
  | unknown (name : String)
  | mismatch (name : String) (statement : Format)
  | custom (reason : String)
  deriving DecidableEq, Repr

/-- Why input cannot be decoded. -/
inductive InputFault where
  | integerRange
  | objectEncoding
  | objectShape
  | objectLacks (field : String)
  | statementShape
  | notBytes (field : String)
  | notText (field : String)
  | notInteger (field : String)
  | certificatesShape
  | certificatesEmpty
  | certificateShape
  | keyShape
  | keyTypeMissing
  | keyAlgorithm
  | keyCurveMissing
  | keyLacks (field : String)
  | keyFieldShape (field : String)
  | headerLength (length : Nat)
  | credentialLength
  | credentialIdLength (length : Nat)
  | keyEncoding
  | extensionsEncoding
  | extensionsShape
  | trailing (count : Nat) (structureName : String)
  | hashLength (length : Nat)
  | truncated (field : String) (offset : Nat)
  | certifiedNameLength
  | coordinateLength (limit : Nat)
  | emptyField (field : String)
  | responseText
  | tokenHeader
  | tokenCertificate
  | tokenPayloadText
  | tokenPayload
  | custom (reason : String)
  deriving DecidableEq, Repr

/-- Why authenticator data is refused. -/
inductive AuthenticatorFault where
  | noCredential
  | differentBytes
  | custom (reason : String)
  deriving DecidableEq, Repr

/-- Why the timestamp of a response is refused; timestamps are in milliseconds. -/
inductive TimestampFault where
  | missing
  | tooOld (timestamp : Int)
  | inFuture (timestamp : Int)
  | custom (reason : String)
  deriving DecidableEq, Repr

/-- Why a registration is refused. -/
inductive Error where
  | missingStatement (cause : MissingPart)
  | unsupportedVersion (cause : VersionFault)
  | structuralMismatch (cause : StructureFault)
  | digestMismatch (cause : DigestFault)
  | keyMismatch (cause : KeyFault)
  | signatureInvalid (cause : SignatureFault)
  | certificateInvalid (cause : CertificateFault)
  /-- The policy on TPM devices rejects the device, for the reason it gives. -/
  | devicePropertyRejected (reason : String)
  | unsupportedAlgorithm (cause : AlgorithmFault)
  | unsupportedFormat (cause : FormatFault)
  | malformedInput (cause : InputFault)
  | authenticatorData (cause : AuthenticatorFault)
  | timestampInvalid (cause : TimestampFault)
  deriving DecidableEq, Repr

/-! ## Wording -/

/-- What is missing, in words. -/
def MissingPart.message : MissingPart → String
  | field name => s!"Missing {name}"
  | certInfo => "Missing certInfo in TPM attestation"
  | pubArea => "Missing pubArea in TPM attestation"
  | attestationKey => "Missing x5c and ecdaaKeyId in TPM attestation"
  | certificates => "x5c contains no certificates"
  | tokenCertificateList => "SafetyNet JWS header has no x5c"
  | tokenCertificates => "SafetyNet x5c contains no certificates"
  | otherStatement expected => s!"Expected a '{expected.name}' attestation statement"
  | custom reason => reason

/-- The version at fault, in words. -/
def VersionFault.message : VersionFault → String
  | tpm version => s!"Unsupported TPM version: {version}"
  | emptySafetyNet => "SafetyNet ver must not be empty"
  | custom reason => reason

/-- What does not go together, in words. -/
def StructureFault.message : StructureFault → String
  | noneNotEmpty => "attStmt must be empty for none attestation"
  | tpmMagic found => s!"Invalid TPM magic value: 0x{Numeral.hexadecimal 8 found.toNat}"
  | tpmType found => s!"Invalid TPM attestation type: 0x{Numeral.hexadecimal 4 found.toNat}"
  | notCertifyInfo => "certInfo does not carry TPMS_CERTIFY_INFO"
  | certificatesAndKeyIdentifier => "Both x5c and ecdaaKeyId present"
  | boundToAllApplications => "Key is bound to all applications"
  | originNotGenerated => "Key origin is not KM_ORIGIN_GENERATED"
  | purposeNotSigning => "Key purpose does not include KM_PURPOSE_SIGN"
  | profileMismatch => "SafetyNet ctsProfileMatch is false"
  | custom reason => reason

/-- The digest at fault, in words. -/
def DigestFault.message : DigestFault → String
  | extraData => "extraData does not match the hash of attToBeSigned"
  | certifiedName => "Certified name does not match the hash of pubArea"
  | appleNonce => "Apple nonce does not match the hash of authData and clientDataHash"
  | safetyNetNonce => "SafetyNet nonce does not match the hash of authData and clientDataHash"
  | attestationChallenge => "attestationChallenge does not match clientDataHash"
  | custom reason => reason

/-- An optional identifier, in words. -/
def optionalId : Option Int → String
  | some id => s!"Some({id})"
  | none => "None"

/-- The key at fault, in words. -/
def KeyFault.message : KeyFault → String
  | pubArea => "Credential public key does not match TPM pubArea"
  | attestationCertificate => "Credential public key does not match the attestation certificate"
  | credentialCertificate => "Credential public key does not match the credential certificate"
  | selfAlgorithm statement key =>
    s!"Self attestation alg {statement} does not match credential key alg {optionalId key}"
  | notOnCurve kind => s!"Expected an EC key, found {kind.withArticle} key"
  | custom reason => reason

/-- What is wrong with the signature, in words. -/
def SignatureFault.message : SignatureFault → String
  | rejected alg => s!"{alg.name} signature verification failed"
  | curve alg found => s!"{alg.name} cannot be used with a {found.name} key"
  | key alg found => s!"{alg.name} cannot be used with {found.withArticle} key"
  | tokenRejected => "SafetyNet JWS signature verification failed"
  | tokenKey alg found =>
    s!"SafetyNet JWS algorithm {alg.name} cannot be used with {found.withArticle} key"
  | custom reason => reason

/-- What is wrong with the certificate, in words. -/
def CertificateFault.message : CertificateFault → String
  | unreadable => "Failed to parse X509 certificate"
  | trailingBytes => "Trailing bytes after X509 certificate"
  | version encoded => s!"Certificate version must be 3, found {(encoded + 1).toNat}"
  | basicConstraints => "Invalid basic constraints"
  | authority => "Certificate must not be a CA certificate"
  | publicKey => "Failed to parse certificate public key"
  | compressedPoint => "Certificate EC key is not an uncompressed point"
  | coordinateLength length => s!"Unsupported EC coordinate length: {length}"
  | keyKind => "Unsupported certificate public key type"
  | aaguidShape => "Invalid AAGUID extension format"
  | aaguidLength => "Invalid AAGUID extension"
  | aaguidMismatch => "AAGUID in certificate does not match AAGUID in authenticator data"
  | aaguidCritical => "AAGUID extension must not be critical"
  | alternativeName => "Invalid subject alternative name"
  | noAlternativeName => "AIK certificate has no subject alternative name"
  | attributeTag tag => s!"TPM attribute must be a UTF8String, found Tag({tag})"
  | attributeText => "TPM attribute is not a string"
  | incompleteDevice => "AIK certificate SAN lacks TPM manufacturer, model or version"
  | subjectNotEmpty => "AIK certificate subject must be empty"
  | keyUsage => "Invalid extended key usage"
  | noKeyUsage => "AIK certificate has no extended key usage"
  | noAikUsage => "AIK certificate missing tcg-kp-AIKCertificate key usage"
  | noAppleNonce => "Apple nonce extension missing from credential certificate"
  | appleNonce => "Invalid Apple nonce extension"
  | appleNonceMissing => "Invalid Apple nonce extension: missing [1] nonce"
  | noKeyDescription => "Android key description extension missing"
  | keyDescription => "Invalid Android key description"
  | keyDescriptionTrailing => "Trailing bytes after Android key description"
  | subjectLacks name => s!"Attestation certificate subject missing {name}"
  | organizationalUnitText => "Invalid OU"
  | organizationalUnit found =>
    s!"Attestation certificate OU must be 'Authenticator Attestation', found '{found}'"
  | certificateCount found =>
    s!"FIDO U2F x5c must contain exactly one certificate, found {found}"
  | securityKeyKind found =>
    s!"FIDO U2F attestation certificate key must be EC P-256, found {found.withArticle}"
  | hostName => "SafetyNet certificate is not issued to attest.android.com"
  | custom reason => reason

/-- What is not supported, in words. -/
def AlgorithmFault.message : AlgorithmFault → String
  | unknown id => s!"Unknown COSE algorithm: {id}"
  | noDigest => "EdDSA has no standalone digest"
  | es512 => "ES512 signatures are not supported"
  | ecCurve id => s!"Unsupported EC2 curve: {id}"
  | octetKeyCurve => "Only Ed25519 OKP keys are supported"
  | keyType id => s!"Unsupported COSE key type: {id}"
  | tpmName id => s!"Unsupported TPM name algorithm: 0x{Numeral.hexadecimal 4 id.toNat}"
  | ecdaa => "ECDAA attestation not supported"
  | securityKeyCredential => "FIDO U2F credential key must be an EC2 P-256 key"
  | securityKeyCoordinates => "FIDO U2F credential key coordinates must be 32 bytes"
  | custom reason => reason

/-- The format at fault, in words. -/
def FormatFault.message : FormatFault → String
  | unknown name => name
  | mismatch name statement => s!"format '{name}' does not match '{statement.name}' statement"
  | custom reason => reason

/-- Why the input cannot be decoded, in words. -/
def InputFault.message : InputFault → String
  | integerRange => "CBOR integer out of range for i64"
  | objectEncoding => "Invalid attestation object CBOR"
  | objectShape => "Attestation object is not a CBOR map"
  | objectLacks field => s!"Missing {field}"
  | statementShape => "Attestation statement is not a CBOR map"
  | notBytes field => s!"{field} is not a byte string"
  | notText field => s!"{field} is not a text string"
  | notInteger field => s!"{field} is not an integer"
  | certificatesShape => "x5c is not an array"
  | certificatesEmpty => "x5c must contain at least one certificate"
  | certificateShape => "x5c entry is not a byte string"
  | keyShape => "Credential public key is not a CBOR map"
  | keyTypeMissing => "Missing key type in credential public key"
  | keyAlgorithm => "Credential public key alg is not an integer"
  | keyCurveMissing => "Missing curve in EC2 credential public key"
  | keyLacks field => s!"Missing {field} in credential public key"
  | keyFieldShape field => s!"{field} in credential public key is not a byte string"
  | headerLength length => s!"Authenticator data too short: {length} bytes"
  | credentialLength => "Authenticator data too short for attested credential data"
  | credentialIdLength length =>
    s!"Credential ID length {length} exceeds remaining authenticator data"
  | keyEncoding => "Invalid credential public key CBOR"
  | extensionsEncoding => "Invalid extension outputs CBOR"
  | extensionsShape => "Extension outputs are not a CBOR map"
  | trailing count structureName => s!"{count} trailing bytes after {structureName}"
  | hashLength length => s!"Client data hash must be 32 bytes, got {length}"
  | truncated field offset => s!"TPM structure truncated reading {field} at offset {offset}"
  | certifiedNameLength => "TPM certify name too short to hold a hash algorithm"
  | coordinateLength limit => s!"EC coordinate longer than {limit} bytes"
  | emptyField field => s!"Empty {field}"
  | responseText => "SafetyNet response is not UTF-8"
  | tokenHeader => "Invalid SafetyNet JWS header"
  | tokenCertificate => "Invalid base64 in SafetyNet x5c"
  | tokenPayloadText => "Invalid base64 in SafetyNet payload"
  | tokenPayload => "Invalid SafetyNet payload"
  | custom reason => reason

/-- What is wrong with the authenticator data, in words. -/
def AuthenticatorFault.message : AuthenticatorFault → String
  | noCredential => "Attested credential data is not present"
  | differentBytes => "Raw authenticator data does not match the attestation object"
  | custom reason => reason

/-- What is wrong with the timestamp, in words. -/
def TimestampFault.message : TimestampFault → String
  | missing => "SafetyNet timestampMs is missing or out of range"
  | tooOld timestamp => s!"SafetyNet response from {Calendar.text timestamp} is too old"
  | inFuture timestamp => s!"SafetyNet response from {Calendar.text timestamp} lies in the future"
  | custom reason => reason

/-- Why the registration is refused, in words: the kind, and after a colon the cause. The reason of
a policy on TPM devices is not part of it. -/
def Error.message : Error → String
  | missingStatement cause => "Missing attestation statement data: " ++ cause.message
  | unsupportedVersion cause => "Unsupported version: " ++ cause.message
  | structuralMismatch cause => "Structural mismatch: " ++ cause.message
  | digestMismatch cause => "Digest mismatch: " ++ cause.message
  | keyMismatch cause => "Public key mismatch: " ++ cause.message
  | signatureInvalid cause => "Invalid signature: " ++ cause.message
  | certificateInvalid cause => "Invalid attestation certificate: " ++ cause.message
  | devicePropertyRejected _ => "TPM device property rejected"
  | unsupportedAlgorithm cause => "Unsupported algorithm: " ++ cause.message
  | unsupportedFormat cause => "Unsupported attestation format: " ++ cause.message
  | malformedInput cause => "Malformed input: " ++ cause.message
  | authenticatorData cause => "Invalid authenticator data: " ++ cause.message
  | timestampInvalid cause => "Invalid timestamp: " ++ cause.message

/-- The result of a step that may refuse its input. -/
abbrev Result (α : Type) := Except Error α

end Attestation
