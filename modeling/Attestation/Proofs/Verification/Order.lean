import Attestation.Proofs.FirstFailure
import Attestation.Proofs.Signature.Pairing
import Attestation.Proofs.Verification.Configuration

/-!
# The order of the checks on a TPM attestation

The checks come in four parts: whether everything is there that is needed (`presenceChecks`),
whether the public area is the one of the credential key (`areaChecks`), whether the attestation
certifies it for the signed data (`certInfoChecks`), and then the certificate, the signature and
what a policy is asked about. Each list names all that its checks look at, so a failure of one part
is the same whatever there is to find later (`TpmStatement.checks_in_order`).
-/

namespace Attestation.TpmStatement

/-! ## The checks -/

/-- Both structures are there, the version is supported, and there is a credential. -/
def presenceChecks (certInfo pubArea : Bool) (version : String) (credential : Bool) : List Check :=
  [.require (certInfo = true) (.missingStatement .certInfo),
    .require (pubArea = true) (.missingStatement .pubArea),
    .require (version = "2.0") (.unsupportedVersion (.tpm version)),
    .require (credential = true) (.authenticatorData .noCredential)]

/-- The public area can be read and describes the credential key. -/
def areaChecks (pubArea : Bytes) (key : CredentialKey) : List Check :=
  Check.succeedThen (Tpm.PublicArea.parse pubArea) fun area => [.succeed (checkKey key area)]

/-- The hash function of the algorithm with the identifier. -/
def digestOf? (alg : Int) : Option Digest :=
  (Algorithm.ofId? alg).bind Algorithm.digest?

/-- The name of a certified object is the hash of the public area by a function that is known. -/
def nameChecks (pubArea : Bytes) : Tpm.Attested → List Check
  | .certify info => [
    .require (∃ digest, Tpm.digestOfId? info.nameAlg = some digest)
      (.unsupportedAlgorithm (.tpmName info.nameAlg)),
    .require (∃ digest, Tpm.digestOfId? info.nameAlg = some digest ∧
      info.nameDigest = digest.hash pubArea) (.digestMismatch .certifiedName)]
  -- not to be found behind the kind that certifies an object
  | .other _ => []

/-- The attestation can be read, has the magic number and the kind of a certification, and has the
hash of the signed data and the name of the object with the public area. -/
def certInfoChecks (certInfo : Bytes) (alg : Int) (signedData pubArea : Bytes) : List Check :=
  Check.succeedThen (Tpm.Attest.parse certInfo) fun attest =>
    .require (attest.magic = Tpm.Attest.generatedMagic)
      (.structuralMismatch (.tpmMagic attest.magic)) ::
    .require (attest.type = Tpm.Attest.certifyType) (.structuralMismatch (.tpmType attest.type)) ::
    .require (∃ known, Algorithm.ofId? alg = some known) (.unsupportedAlgorithm (.unknown alg)) ::
    .require (∃ digest, digestOf? alg = some digest) (.unsupportedAlgorithm .noDigest) ::
    .require (∃ digest, digestOf? alg = some digest ∧ attest.extraData = digest.hash signedData)
      (.digestMismatch .extraData) ::
    nameChecks pubArea attest.attested

/-! ## The steps that make them -/

/-- What the verification needs. -/
structure Parts where
  certInfo : Bytes
  pubArea : Bytes
  credential : AttestedCredential

/-- What the verification needs is there, in a version that is supported. -/
structure HasParts (s : TpmStatement) (r : Registration) (p : Parts) : Prop where
  certInfo : s.certInfo = some p.certInfo
  pubArea : s.pubArea = some p.pubArea
  version : s.version = "2.0"
  credential : r.object.authData.credential = some p.credential

/-- Takes what the verification needs. -/
def parts (s : TpmStatement) (r : Registration) : Result Parts := do
  let certInfo ← orError (.missingStatement .certInfo) s.certInfo
  let pubArea ← orError (.missingStatement .pubArea) s.pubArea
  ensure (s.version == supportedVersion) (.unsupportedVersion (.tpm s.version))
  let credential ← r.credential
  return ⟨certInfo, pubArea, credential⟩

/-- Reads the public area and compares it with the key. -/
def checkArea (pubArea : Bytes) (key : CredentialKey) : Result Unit := do
  checkKey key (← Tpm.PublicArea.parse pubArea)

/-- Reads the attestation and checks what it certifies. -/
def checkCertInfo (certInfo : Bytes) (alg : Int) (signedData pubArea : Bytes) : Result Unit := do
  checkAttest (← Tpm.Attest.parse certInfo) alg signedData pubArea

/-- Verifies the signature. The result is the certificates and the first one. -/
def checkSignature (s : TpmStatement) (certInfo : Bytes) : Result (List Bytes × Certificate) := do
  let certificates ← s.attestationCertificates
  let leaf ← leafCertificate certificates
  let key ← leaf.publicKey
  let alg ← Algorithm.ofId s.alg
  alg.verify key certInfo s.signature
  return (certificates, leaf)

/-- The verification is the four parts one after the other. -/
theorem verify_eq_parts (policy : TpmDevicePolicy) (s : TpmStatement) (r : Registration) :
    s.verify policy r = do
      let p ← s.parts r
      checkArea p.pubArea p.credential.key
      checkCertInfo p.certInfo s.alg r.signedData p.pubArea
      let (certificates, leaf) ← s.checkSignature p.certInfo
      leaf.checkAttestationKey policy
      checkAaguid leaf p.credential.aaguid
      return ⟨.attCa, some certificates⟩ := by
  simp only [verify, parts, checkArea, checkCertInfo, checkSignature, bind_assoc, pure_bind]

section
variable {s : TpmStatement} {r : Registration} {p : Parts}

/-- The parts of a statement are taken exactly if none of them is missing. -/
theorem parts_eq_ok : s.parts r = .ok p ↔ s.HasParts r p := by
  refine ⟨fun h => ?_, fun h => ?_⟩
  · obtain ⟨certInfo, hcertInfo, h₁⟩ := bind_eq_ok.1 h
    obtain ⟨pubArea, hpubArea, h₂⟩ := bind_eq_ok.1 h₁
    obtain ⟨_, hversion, h₃⟩ := bind_eq_ok.1 h₂
    obtain ⟨credential, hcredential, h₄⟩ := bind_eq_ok.1 h₃
    cases pure_eq_ok.1 h₄
    have hversion : s.version = "2.0" := by simpa [supportedVersion] using hversion
    exact ⟨orError_eq_ok.1 hcertInfo, orError_eq_ok.1 hpubArea, hversion,
      Registration.credential_eq_ok.1 hcredential⟩
  · refine bind_eq_ok.2 ⟨_, orError_eq_ok.2 h.certInfo, ?_⟩
    refine bind_eq_ok.2 ⟨_, orError_eq_ok.2 h.pubArea, ?_⟩
    refine bind_eq_ok.2 ⟨(), by simpa [supportedVersion] using h.version, ?_⟩
    exact bind_eq_ok.2 ⟨_, Registration.credential_eq_ok.2 h.credential, rfl⟩

/-- The credential has to be there. -/
theorem performs_credential :
    Performs [.require (r.object.authData.credential.isSome = true)
      (.authenticatorData .noCredential)] r.credential := by
  have heq : r.credential =
      orError (.authenticatorData .noCredential) r.object.authData.credential := by
    unfold Registration.credential AuthenticatorData.requireCredential
    cases r.object.authData.credential <;> rfl
  rw [heq]
  exact .orError Iff.rfl

/-- The parts are asked for in the order of the checks of presence. -/
theorem performs_parts :
    Performs (presenceChecks s.certInfo.isSome s.pubArea.isSome s.version
      r.object.authData.credential.isSome) (s.parts r) := by
  refine (Performs.orError Iff.rfl).bind fun certInfo => ?_
  refine (Performs.orError Iff.rfl).bind fun pubArea => ?_
  refine (Performs.ensure beq_iff_eq).bind fun _ => ?_
  refine performs_credential.bind fun credential => ?_
  exact .pure _

end

/-- The public area is checked as the list of its checks says. -/
theorem performs_checkArea (pubArea : Bytes) (key : CredentialKey) :
    Performs (areaChecks pubArea key) (checkArea pubArea key) :=
  .succeedThen fun area _ => .succeed (checkKey key area)

/-- The algorithm has to be known. -/
theorem performs_ofId (alg : Int) :
    Performs [.require (∃ known, Algorithm.ofId? alg = some known)
      (.unsupportedAlgorithm (.unknown alg))] (Algorithm.ofId alg) := by
  have heq : Algorithm.ofId alg =
      orError (.unsupportedAlgorithm (.unknown alg)) (Algorithm.ofId? alg) := by
    unfold Algorithm.ofId
    cases Algorithm.ofId? alg <;> rfl
  rw [heq]
  exact .orError Option.isSome_iff_exists

/-- The algorithm has to sign a hash. -/
theorem performs_hash {alg : Int} {known : Algorithm} (hknown : Algorithm.ofId? alg = some known)
    (signedData : Bytes) :
    Performs [.require (∃ digest, digestOf? alg = some digest) (.unsupportedAlgorithm .noDigest)]
      (known.hash signedData) := by
  have heq : known.digest = orError (.unsupportedAlgorithm .noDigest) (digestOf? alg) := by
    unfold Algorithm.digest digestOf?
    rw [hknown, Option.bind_some]
    cases known.digest? <;> rfl
  rw [Algorithm.hash, heq]
  exact (Performs.orError Option.isSome_iff_exists).bind fun digest => .pure _

/-- The hash of the certified name has to be known. -/
theorem performs_nameDigest (info : Tpm.CertifyInfo) :
    Performs [.require (∃ digest, Tpm.digestOfId? info.nameAlg = some digest)
      (.unsupportedAlgorithm (.tpmName info.nameAlg))] (nameDigest info) := by
  have heq : nameDigest info = orError (.unsupportedAlgorithm (.tpmName info.nameAlg))
      (Tpm.digestOfId? info.nameAlg) := by
    unfold nameDigest
    cases Tpm.digestOfId? info.nameAlg <;> rfl
  rw [heq]
  exact .orError Option.isSome_iff_exists

/-- The certification is checked as the list of its checks says. -/
theorem performs_checkCertInfo (certInfo : Bytes) (alg : Int) (signedData pubArea : Bytes) :
    Performs (certInfoChecks certInfo alg signedData pubArea)
      (checkCertInfo certInfo alg signedData pubArea) := by
  refine .succeedThen fun attest hparse => ?_
  refine (Performs.ensure beq_iff_eq).bind fun _ => ?_
  refine (Performs.ensure beq_iff_eq).bind_of_ok fun _ htype => ?_
  refine (performs_ofId alg).bind_of_ok fun known hknown => ?_
  have hknown := Algorithm.ofId_eq_ok.1 hknown
  refine (performs_hash hknown signedData).bind_of_ok fun expected hhash => ?_
  obtain ⟨digest, hdigest, rfl⟩ := Algorithm.hash_eq_ok.1 hhash
  have hdigest : digestOf? alg = some digest := by rw [digestOf?, hknown, Option.bind_some, hdigest]
  refine (Performs.ensure ?_).bind fun _ => ?_
  · simp [hdigest]
  · have htype : attest.type = Tpm.Attest.certifyType := by simpa using htype
    obtain ⟨info, hinfo⟩ := (Tpm.Attest.certifies_iff hparse).2 htype
    rw [hinfo]
    refine (performs_nameDigest info).bind_of_ok fun nameDigest hname => .ensure ?_
    have hname : Tpm.digestOfId? info.nameAlg = some nameDigest := by
      rw [Tpm.digestOfId?_eq_some]
      exact nameDigest_eq_ok.1 hname
    simp [hname]

/-! ## What passes -/

/-- The bytes are the public area of the credential key. -/
def AreaOfKey (pubArea : Bytes) (key : CredentialKey) : Prop :=
  ∃ area, Tpm.PublicArea.Encoding pubArea area ∧ area.body.Describes key

/-- The bytes certify the object with the public area for the signed data, which are hashed by the
function of the algorithm. -/
def CertifiesFor (certInfo : Bytes) (alg : Int) (signedData pubArea : Bytes) : Prop :=
  ∃ known digest, Algorithm.ofId? alg = some known ∧ known.digest? = some digest ∧
    Tpm.Certification (digest.hash signedData) pubArea certInfo

/-- The checks of the public area pass if it is the one of the credential key. -/
theorem checkArea_eq_ok {pubArea : Bytes} {key : CredentialKey} {u : Unit} :
    checkArea pubArea key = .ok u ↔ AreaOfKey pubArea key := by
  rw [checkArea, bind_eq_ok]
  simp only [Tpm.PublicArea.parse_eq_ok_iff, checkKey_eq_ok, AreaOfKey]

/-- The checks of the certification pass if it certifies the area for the signed data. -/
theorem checkCertInfo_eq_ok {certInfo signedData pubArea : Bytes} {alg : Int} {u : Unit} :
    checkCertInfo certInfo alg signedData pubArea = .ok u ↔
      CertifiesFor certInfo alg signedData pubArea := by
  rw [checkCertInfo, bind_eq_ok, CertifiesFor, checkAttest_eq_ok]

/-- A check of presence fails exactly if the statement lacks a part. -/
theorem presence_fails_iff {s : TpmStatement} {r : Registration} :
    (∃ e, FirstFailure (presenceChecks s.certInfo.isSome s.pubArea.isSome s.version
      r.object.authData.credential.isSome) e) ↔ ¬∃ p, s.HasParts r p := by
  rw [performs_parts.exists_failure_iff]
  simp only [parts_eq_ok]

/-- A check of the public area fails exactly if it is not the one of the credential key. -/
theorem area_fails_iff {pubArea : Bytes} {key : CredentialKey} :
    (∃ e, FirstFailure (areaChecks pubArea key) e) ↔ ¬AreaOfKey pubArea key := by
  rw [(performs_checkArea pubArea key).exists_failure_iff]
  simp only [checkArea_eq_ok, exists_const]

/-- A check of the certification fails exactly if it does not certify the area for the signed
data. -/
theorem certInfo_fails_iff {certInfo signedData pubArea : Bytes} {alg : Int} :
    (∃ e, FirstFailure (certInfoChecks certInfo alg signedData pubArea) e) ↔
      ¬CertifiesFor certInfo alg signedData pubArea := by
  rw [(performs_checkCertInfo certInfo alg signedData pubArea).exists_failure_iff]
  simp only [checkCertInfo_eq_ok, exists_const]

/-! ## What fails -/

section
variable {s : TpmStatement} {r : Registration} {config : Config} {now : Instant} {p : Parts}
  {e : Error}

/-- The validator of TPM attestations looks at the device policy only. -/
theorem validate_eq (hs : r.statement = .tpm s) :
    (Validator.builtIn config now .tpm).validate r = s.verify config.devicePolicy r := by
  have hformat : r.statement.format = .tpm := by
    rw [hs]
    rfl
  rw [Validator.builtIn_of_format hformat, ← hformat, Format.verify_own, hs]

/-- The error of a missing part is the result. -/
theorem validate_of_presence (hs : r.statement = .tpm s)
    (h : FirstFailure (presenceChecks s.certInfo.isSome s.pubArea.isSome s.version
      r.object.authData.credential.isSome) e) :
    (Validator.builtIn config now .tpm).validate r = .error e := by
  have hparts : s.parts r = .error e := performs_parts.eq_error_iff.2 h
  rw [validate_eq hs, verify_eq_parts, hparts]
  rfl

/-- Where no part is missing, the error of the public area is the result. -/
theorem validate_of_area (hs : r.statement = .tpm s) (hp : s.HasParts r p)
    (h : FirstFailure (areaChecks p.pubArea p.credential.key) e) :
    (Validator.builtIn config now .tpm).validate r = .error e := by
  rw [validate_eq hs, verify_eq_parts]
  refine bind_eq_error.2 (.inr ⟨p, parts_eq_ok.2 hp, ?_⟩)
  exact bind_eq_error.2 (.inl ((performs_checkArea _ _).eq_error_iff.2 h))

/-- Where the public area is the one of the credential key, the error of the attestation is the
result. -/
theorem validate_of_certInfo (hs : r.statement = .tpm s) (hp : s.HasParts r p)
    (harea : AreaOfKey p.pubArea p.credential.key)
    (h : FirstFailure (certInfoChecks p.certInfo s.alg r.signedData p.pubArea) e) :
    (Validator.builtIn config now .tpm).validate r = .error e := by
  rw [validate_eq hs, verify_eq_parts]
  refine bind_eq_error.2 (.inr ⟨p, parts_eq_ok.2 hp, ?_⟩)
  refine bind_eq_error.2 (.inr ⟨(), checkArea_eq_ok.2 harea, ?_⟩)
  exact bind_eq_error.2 (.inl ((performs_checkCertInfo _ _ _ _).eq_error_iff.2 h))

variable {certificates : List Bytes} {leaf : Certificate} {key : PublicKey} {known : Algorithm}

/-- A signature is refused for what its verification under the key of the first certificate says. -/
theorem checkSignature_eq_error {certInfo : Bytes}
    (hcertificates : s.certificates = some certificates) (hleaf : BeginsWith certificates leaf)
    (hkey : leaf.publicKey = .ok key) (hknown : Algorithm.ofId? s.alg = some known)
    (h : known.verify key certInfo s.signature = .error e) :
    s.checkSignature certInfo = .error e := by
  refine bind_eq_error.2 (.inr ⟨_, attestationCertificates_eq_ok.2 hcertificates, ?_⟩)
  refine bind_eq_error.2 (.inr ⟨_, Certificate.leafCertificate_eq_ok.2 hleaf, ?_⟩)
  refine bind_eq_error.2 (.inr ⟨_, hkey, ?_⟩)
  refine bind_eq_error.2 (.inr ⟨_, Algorithm.ofId_eq_ok.2 hknown, ?_⟩)
  exact bind_eq_error.2 (.inl h)

/-- Where the attestation certifies the area, the error of the signature is the result. -/
theorem validate_of_signature (hs : r.statement = .tpm s) (hp : s.HasParts r p)
    (harea : AreaOfKey p.pubArea p.credential.key)
    (hcertInfo : CertifiesFor p.certInfo s.alg r.signedData p.pubArea)
    (h : s.checkSignature p.certInfo = .error e) :
    (Validator.builtIn config now .tpm).validate r = .error e := by
  rw [validate_eq hs, verify_eq_parts]
  refine bind_eq_error.2 (.inr ⟨p, parts_eq_ok.2 hp, ?_⟩)
  refine bind_eq_error.2 (.inr ⟨(), checkArea_eq_ok.2 harea, ?_⟩)
  refine bind_eq_error.2 (.inr ⟨(), checkCertInfo_eq_ok.2 hcertInfo, ?_⟩)
  exact bind_eq_error.2 (.inl h)

/-- With the key of a certificate, which has its coordinates in full, a signature is refused as such
or because the algorithm has no verification. -/
theorem kind_of_verify {message sig : Bytes} (hkey : leaf.publicKey = .ok key)
    (h : known.verify key message sig = .error e) :
    known = .es512 ∧ e = .unsupportedAlgorithm .es512 ∨ ∃ fault, e = .signatureInvalid fault := by
  have houtcome := Algorithm.outcome_verify known key message sig
  rw [h] at houtcome
  cases houtcome with
  | unsupported hes512 => exact .inl ⟨hes512, rfl⟩
  | tooLong hec _ hlong =>
    subst hec
    have hpoint := PublicKey.point_of_certificate hkey
    exact absurd (PublicKey.encodePoint_eq_ok.1 hpoint).1 hlong
  | refused _ _ _ => exact .inr ⟨_, rfl⟩

end

/-- The checks are made in the order of their lists, and the first that fails tells the error,
whatever the registration has that the list does not name: what is missing tells it before any
content is looked at, then the public area and the credential key, then the attestation, the
algorithm, the signed data and the area, and then the signature, the key and the attestation. None
of these depends on the configuration, and none but the last on the certificates. -/
theorem checks_in_order :
    (∀ (certInfo pubArea : Bool) (version : String) (credential : Bool) (e : Error),
      FirstFailure (presenceChecks certInfo pubArea version credential) e →
      ∀ config now r s, r.statement = .tpm s → s.certInfo.isSome = certInfo →
        s.pubArea.isSome = pubArea → s.version = version →
        r.object.authData.credential.isSome = credential →
        (Validator.builtIn config now .tpm).validate r = .error e) ∧
    (∀ (s : TpmStatement) (r : Registration),
      (∃ e, FirstFailure (presenceChecks s.certInfo.isSome s.pubArea.isSome s.version
        r.object.authData.credential.isSome) e) ↔ ¬∃ p, s.HasParts r p) ∧
    (∀ pubArea key e, FirstFailure (areaChecks pubArea key) e →
      ∀ config now r s certInfo credential, r.statement = .tpm s →
        s.HasParts r ⟨certInfo, pubArea, credential⟩ → credential.key = key →
        (Validator.builtIn config now .tpm).validate r = .error e) ∧
    (∀ pubArea key, (∃ e, FirstFailure (areaChecks pubArea key) e) ↔ ¬AreaOfKey pubArea key) ∧
    (∀ certInfo alg signedData pubArea e,
      FirstFailure (certInfoChecks certInfo alg signedData pubArea) e →
      ∀ config now r s credential, r.statement = .tpm s →
        s.HasParts r ⟨certInfo, pubArea, credential⟩ → AreaOfKey pubArea credential.key →
        s.alg = alg → r.signedData = signedData →
        (Validator.builtIn config now .tpm).validate r = .error e) ∧
    (∀ certInfo alg signedData pubArea,
      (∃ e, FirstFailure (certInfoChecks certInfo alg signedData pubArea) e) ↔
        ¬CertifiesFor certInfo alg signedData pubArea) ∧
    (∀ certInfo e, Tpm.Attest.parse certInfo = .error e → e.IsMalformed) ∧
    ∀ (known : Algorithm) key certInfo signature e,
      known.verify key certInfo signature = .error e →
      ∀ config now r s pubArea credential certificates leaf, r.statement = .tpm s →
        s.HasParts r ⟨certInfo, pubArea, credential⟩ → AreaOfKey pubArea credential.key →
        CertifiesFor certInfo s.alg r.signedData pubArea → Algorithm.ofId? s.alg = some known →
        s.certificates = some certificates → BeginsWith certificates leaf →
        leaf.publicKey = .ok key → s.signature = signature →
        (Validator.builtIn config now .tpm).validate r = .error e ∧
        (known = .es512 ∧ e = .unsupportedAlgorithm .es512 ∨
          ∃ fault, e = .signatureInvalid fault) := by
  refine ⟨?_, fun s r => presence_fails_iff, ?_, fun pubArea key => area_fails_iff, ?_,
    fun certInfo alg signedData pubArea => certInfo_fails_iff, Tpm.Attest.raises_parse, ?_⟩
  · rintro _ _ _ _ e h config now r s hs rfl rfl rfl rfl
    exact validate_of_presence hs h
  · rintro pubArea _ e h config now r s certInfo credential hs hp rfl
    exact validate_of_area hs hp h
  · rintro certInfo _ _ pubArea e h config now r s credential hs hp harea rfl rfl
    exact validate_of_certInfo hs hp harea h
  · rintro known key certInfo _ e h config now r s pubArea credential certificates leaf hs hp harea
      hcertInfo hknown hcertificates hleaf hkey rfl
    have herror := checkSignature_eq_error hcertificates hleaf hkey hknown h
    exact ⟨validate_of_signature hs hp harea hcertInfo herror, kind_of_verify hkey h⟩

/-! ## Samples -/

namespace OrderSample

open TpmSample (statement registration)

/-- The registration of the sample with another statement. -/
def withStatement (s : TpmStatement) : Registration :=
  ⟨⟨registration.object.authData, .tpm s⟩, registration.authenticatorBytes,
    registration.clientDataHash, registration.length_clientDataHash, registration.decodes⟩

/-- What the sample passes before its signature is looked at. -/
theorem passes : ∃ credential, registration.object.authData.credential = some credential ∧
    AreaOfKey TpmSample.pubArea credential.key ∧
    CertifiesFor TpmSample.certInfo statement.alg registration.signedData TpmSample.pubArea := by
  obtain ⟨hcredential, -, halg, hdigest, hpubArea, harea, hdescribes, hcertInfo, hcertification,
    -⟩ := (TpmStatement.verify_eq_ok.1 TpmSample.verify_eq_ok).1
  cases hpubArea
  cases hcertInfo
  exact ⟨_, hcredential, ⟨_, harea, hdescribes⟩, _, _, halg, hdigest, hcertification⟩

/-- Under an algorithm without a hash function, the attestation of the sample fails for that. -/
theorem fails_noDigest (signedData : Bytes) :
    FirstFailure (certInfoChecks TpmSample.certInfo (-8) signedData TpmSample.pubArea)
      (.unsupportedAlgorithm .noDigest) := by
  obtain ⟨-, -, -, _, digest, -, -, hcertification⟩ := passes
  have hlength : (digest.hash registration.signedData).length < 65536 :=
    Nat.lt_of_add_right_lt (Tpm.length_hash_lt digest registration.signedData)
  obtain ⟨attest, info, nameDigest, hencoding, hmagic, htype, -⟩ :=
    (Tpm.certification_iff hlength).1 hcertification
  have hparse := Tpm.Attest.parse_eq_ok_iff.2 hencoding
  rw [certInfoChecks, Check.succeedThen_of_ok hparse]
  have hknown : ∃ known, Algorithm.ofId? (-8) = some known := ⟨.edDSA, rfl⟩
  have hnone : ¬∃ digest, digestOf? (-8) = some digest := by
    rintro ⟨_, ⟨⟩⟩
  exact .later ⟨attest, hparse⟩ (.later hmagic (.later htype (.later hknown (.here ⟨hnone, rfl⟩))))

end OrderSample

open OrderSample (withStatement)
open TpmSample (statement certificate)

/-- A statement without a public area and in another version, one whose structures cannot be read,
one with an algorithm that has no hash function and no certificate, and one without a signature. -/
theorem checks_in_order_samples :
    (Validator.builtIn {} ⟨0⟩ .tpm).validate
        (withStatement { statement with pubArea := none, version := "1.2" }) =
      .error (.missingStatement .pubArea) ∧
    (Validator.builtIn {} ⟨0⟩ .tpm).validate
        (withStatement { statement with pubArea := some [], certInfo := some [] }) =
      .error (.malformedInput (.truncated "type" 0)) ∧
    (Validator.builtIn {} ⟨0⟩ .tpm).validate
        (withStatement { statement with alg := -8, certificates := none }) =
      .error (.unsupportedAlgorithm .noDigest) ∧
    (Validator.builtIn {} ⟨0⟩ .tpm).validate (withStatement { statement with signature := [] }) =
      .error (.signatureInvalid (.rejected .es256)) := by
  obtain ⟨hpresence, -, harea, -, hcertInfo, -, -, hsignature⟩ := checks_in_order
  obtain ⟨credential, hcredential, hpasses, hcertifies⟩ := OrderSample.passes
  have hkey : (Certificate.parse certificate >>= Certificate.publicKey) =
      .ok (.ec .p256 (Bytes.ofNat 32 PrimeCurve.p256.baseX)
        (Bytes.ofNat 32 PrimeCurve.p256.baseY)) := by
    decide +kernel
  obtain ⟨leaf, hparse, hkey⟩ := bind_eq_ok.1 hkey
  have hleaf : BeginsWith [certificate] leaf := ⟨_, _, rfl, Certificate.parse_eq_ok.1 hparse⟩
  have hverify : Algorithm.verify .es256 (.ec .p256 (Bytes.ofNat 32 PrimeCurve.p256.baseX)
      (Bytes.ofNat 32 PrimeCurve.p256.baseY)) TpmSample.certInfo [] =
        .error (.signatureInvalid (.rejected .es256)) := by
    decide +kernel
  refine ⟨?_, ?_, ?_, ?_⟩
  · exact hpresence true false "1.2" true _ (.later rfl (.here ⟨nofun, rfl⟩)) _ _ _ _ rfl rfl rfl
      rfl (congrArg Option.isSome hcredential)
  · exact harea [] credential.key _ (.here rfl) _ _ _ _ [] credential rfl
      ⟨rfl, rfl, rfl, hcredential⟩ rfl
  · exact hcertInfo _ _ _ _ _ (OrderSample.fails_noDigest _) {} ⟨0⟩
      (withStatement { statement with alg := -8, certificates := none })
      { statement with alg := -8, certificates := none } credential rfl
      ⟨rfl, rfl, rfl, hcredential⟩ hpasses rfl rfl
  · exact (hsignature .es256 _ TpmSample.certInfo [] _ hverify {} ⟨0⟩
      (withStatement { statement with signature := [] }) { statement with signature := [] } _
      credential [certificate] leaf rfl ⟨rfl, rfl, rfl, hcredential⟩ hpasses hcertifies rfl rfl
      hleaf hkey rfl).1

end Attestation.TpmStatement
