import Attestation.Proofs.Registration
import Attestation.Proofs.Signature
import Attestation.Proofs.Tpm.Certification
import Attestation.Proofs.Tpm.Device
import Attestation.Proofs.Tpm.Key
import Attestation.Proofs.Tpm.PublicArea
import Attestation.Proofs.Validator
import Attestation.Verification.Tpm

/-!
# What the verification of a TPM attestation accepts

The conditions are put in terms of the bytes of the statement: the public area is laid out as one
that has the numbers of the credential key (`Tpm.PublicBody.Describes`), and the attestation is laid
out as one that certifies this area for the signed data (`Tpm.Certification`).
`TpmStatement.Accepts` is all the conditions together, and a statement is accepted exactly if it
meets them (`tpm_validate_eq_ok_iff`). One of them is the answer of the policy on devices, which is
asked for between two parts of the verification that do not depend on it (`TpmStatement.verify_eq`);
`TpmStatement.Reaches` is the conditions of the first part.
-/

namespace Attestation

/-! ## Acceptance -/

namespace TpmStatement

/-- The conditions that a statement and the registration with it have to meet: the object in the
public area is the credential key, the TPM certifies that area for the signed data, and the key of
the first certificate, which is the one of an attestation key and names no other model, has signed
the certification. -/
inductive Accepts (policy : TpmDevicePolicy) (s : TpmStatement) (r : Registration) : Prop
  | intro {credential : AttestedCredential} {alg : Algorithm} {digest : Digest}
      {pubArea certInfo : Bytes} {area : Tpm.PublicArea} {certificates : List Bytes}
      {leaf : Certificate} {key : PublicKey} :
    r.object.authData.credential = some credential → s.version = "2.0" →
    Algorithm.ofId? s.alg = some alg → alg.digest? = some digest →
    s.pubArea = some pubArea → Tpm.PublicArea.Encoding pubArea area →
    area.body.Describes credential.key →
    s.certInfo = some certInfo → Tpm.Certification (digest.hash r.signedData) pubArea certInfo →
    s.certificates = some certificates → BeginsWith certificates leaf →
    leaf.publicKey = .ok key → alg.verify key certInfo s.signature = .ok () →
    leaf.IsAttestationKey policy → leaf.NamesNoOtherModel credential.aaguid → Accepts policy s r

/-- An area passes if its part for the type of key describes the key. -/
theorem checkKey_eq_ok {key : CredentialKey} {area : Tpm.PublicArea} {u : Unit} :
    checkKey key area = .ok u ↔ area.body.Describes key := by
  rw [checkKey, Tpm.PublicArea.describes_iff]
  cases area.key? with
  | none => simp [bind, Except.bind, pure, Except.pure, ensure]
  | some p =>
    rw [bind_eq_ok]
    simp

/-- Only an attestation that certifies an object has one. -/
theorem certified_eq_ok {attested : Tpm.Attested} {info : Tpm.CertifyInfo} :
    certified attested = .ok info ↔ attested = .certify info := by
  cases attested <;> simp [certified]

/-- The hash function of a name is the one with its identifier. -/
theorem nameDigest_eq_ok {info : Tpm.CertifyInfo} {digest : Digest} :
    nameDigest info = .ok digest ↔ info.nameAlg = digest.tpmId := by
  rw [← Tpm.digestOfId?_eq_some]
  unfold nameDigest
  cases Tpm.digestOfId? info.nameAlg <;> simp

/-- An attestation that decodes is accepted if it is a certification of the area for the hash of the
signed data. -/
theorem checkAttest_eq_ok {certInfo signedData pubArea : Bytes} {n : Int} :
    (∃ attest, Tpm.Attest.parse certInfo = .ok attest ∧
      checkAttest attest n signedData pubArea = .ok ()) ↔
      ∃ alg digest, Algorithm.ofId? n = some alg ∧ alg.digest? = some digest ∧
        Tpm.Certification (digest.hash signedData) pubArea certInfo := by
  have hlength (d : Digest) : (d.hash signedData).length < 65536 :=
    Nat.lt_of_add_right_lt (Tpm.length_hash_lt d signedData)
  refine ⟨fun h => ?_, fun h => ?_⟩
  · rcases h with ⟨attest, hparse, h⟩
    obtain ⟨_, hmagic, h₁⟩ := bind_eq_ok.1 h
    obtain ⟨_, htype, h₂⟩ := bind_eq_ok.1 h₁
    obtain ⟨alg, halg, h₃⟩ := bind_eq_ok.1 h₂
    obtain ⟨expected, hhash, h₄⟩ := bind_eq_ok.1 h₃
    obtain ⟨_, hextraData, h₅⟩ := bind_eq_ok.1 h₄
    obtain ⟨info, hinfo, h₆⟩ := bind_eq_ok.1 h₅
    obtain ⟨nameDigest, hnameAlg, hname⟩ := bind_eq_ok.1 h₆
    obtain ⟨digest, hdigest, rfl⟩ := Algorithm.hash_eq_ok.1 hhash
    have hencoding := Tpm.Attest.parse_eq_ok_iff.1 hparse
    have hinfo := certified_eq_ok.1 hinfo
    have hnameAlg := nameDigest_eq_ok.1 hnameAlg
    simp only [ensure_eq_ok, beq_iff_eq] at hmagic htype hextraData hname
    have hcertification := (Tpm.certification_iff (hlength digest)).2
      ⟨attest, info, nameDigest, hencoding, hmagic, htype, hextraData, hinfo, hnameAlg, hname⟩
    exact ⟨alg, digest, Algorithm.ofId_eq_ok.1 halg, hdigest, hcertification⟩
  · rcases h with ⟨alg, digest, halg, hdigest, h⟩
    obtain ⟨attest, info, nameDigest, hencoding, hmagic, htype, hextraData, hinfo, hnameAlg,
      hname⟩ := (Tpm.certification_iff (hlength digest)).1 h
    refine ⟨attest, Tpm.Attest.parse_eq_ok_iff.2 hencoding, ?_⟩
    refine bind_eq_ok.2 ⟨(), by simpa using hmagic, ?_⟩
    refine bind_eq_ok.2 ⟨(), by simpa using htype, ?_⟩
    refine bind_eq_ok.2 ⟨alg, Algorithm.ofId_eq_ok.2 halg, ?_⟩
    refine bind_eq_ok.2 ⟨_, Algorithm.hash_eq_ok.2 ⟨digest, hdigest, rfl⟩, ?_⟩
    refine bind_eq_ok.2 ⟨(), by simpa using hextraData, ?_⟩
    refine bind_eq_ok.2 ⟨info, certified_eq_ok.2 hinfo, ?_⟩
    exact bind_eq_ok.2 ⟨nameDigest, nameDigest_eq_ok.2 hnameAlg, by simpa using hname⟩

/-- The certificates have to be there. -/
theorem attestationCertificates_eq_ok {s : TpmStatement} {certificates : List Bytes} :
    s.attestationCertificates = .ok certificates ↔ s.certificates = some certificates := by
  unfold attestationCertificates
  split <;> simp_all

/-- A certificate passes if it names no other model. -/
theorem checkAaguid_eq_ok {c : Certificate} {aaguid : Bytes} {u : Unit} :
    checkAaguid c aaguid = .ok u ↔ c.NamesNoOtherModel aaguid := by
  rw [checkAaguid, bind_eq_ok]
  unfold Certificate.aaguid Certificate.NamesNoOtherModel
  cases hfound : c.extension? Certificate.aaguidId with
  | none => simp
  | some e =>
    simp only [bind_eq_ok, pure_eq_ok]
    refine ⟨fun h e' he' => ?_, fun h => ?_⟩
    · rcases h with ⟨_, ⟨b, hb, rfl⟩, hrequire⟩
      cases he'
      obtain rfl : b = aaguid := by simpa using hrequire
      exact Certificate.aaguidOf_eq_ok.1 hb
    · exact ⟨_, ⟨aaguid, Certificate.aaguidOf_eq_ok.2 (h e rfl), rfl⟩, by simp⟩

/-! ## Before and after the policy is asked -/

/-- What has been found when the policy is asked. -/
structure Findings where
  credential : AttestedCredential
  certificates : List Bytes
  /-- The first certificate, which is the one of the attestation key. -/
  leaf : Certificate
  device : TpmDevice

/-- All that is checked before the policy is asked about the device is in order: the versions and
the subject, the key, the hashes and the signature. -/
inductive Reaches (s : TpmStatement) (r : Registration) : Findings → Prop
  | intro {credential : AttestedCredential} {alg : Algorithm} {digest : Digest}
      {pubArea certInfo : Bytes} {area : Tpm.PublicArea} {certificates : List Bytes}
      {leaf : Certificate} {key : PublicKey} {device : TpmDevice} :
    r.object.authData.credential = some credential → s.version = "2.0" →
    Algorithm.ofId? s.alg = some alg → alg.digest? = some digest →
    s.pubArea = some pubArea → Tpm.PublicArea.Encoding pubArea area →
    area.body.Describes credential.key →
    s.certInfo = some certInfo → Tpm.Certification (digest.hash r.signedData) pubArea certInfo →
    s.certificates = some certificates → BeginsWith certificates leaf →
    leaf.publicKey = .ok key → alg.verify key certInfo s.signature = .ok () →
    leaf.AsksAbout device → Reaches s r ⟨credential, certificates, leaf, device⟩

/-- The checks before the policy is asked. -/
def beforePolicy (s : TpmStatement) (r : Registration) : Result Findings := do
  let certInfo ← orError (.missingStatement .certInfo) s.certInfo
  let pubArea ← orError (.missingStatement .pubArea) s.pubArea
  ensure (s.version == supportedVersion) (.unsupportedVersion (.tpm s.version))
  let credential ← r.credential
  checkKey credential.key (← Tpm.PublicArea.parse pubArea)
  checkAttest (← Tpm.Attest.parse certInfo) s.alg r.signedData pubArea
  let certificates ← s.attestationCertificates
  let leaf ← leafCertificate certificates
  let key ← leaf.publicKey
  let alg ← Algorithm.ofId s.alg
  alg.verify key certInfo s.signature
  let device ← leaf.askedDevice
  return ⟨credential, certificates, leaf, device⟩

/-- The checks after the policy has been asked, and the verdict. -/
def afterPolicy (f : Findings) : Result Verdict := do
  f.leaf.checkPurpose
  checkAaguid f.leaf f.credential.aaguid
  return ⟨.attCa, some f.certificates⟩

/-- The policy is asked once, and neither what comes before nor what comes after depends on it. -/
theorem verify_eq (policy : TpmDevicePolicy) (s : TpmStatement) (r : Registration) :
    s.verify policy r =
      s.beforePolicy r >>= fun f => policy.check f.device >>= fun _ => afterPolicy f := by
  simp only [verify, beforePolicy, afterPolicy, Certificate.checkAttestationKey_eq, bind_assoc,
    pure_bind]

/-- The policy is asked exactly if everything before is in order. -/
theorem beforePolicy_eq_ok {s : TpmStatement} {r : Registration} {f : Findings} :
    s.beforePolicy r = .ok f ↔ s.Reaches r f := by
  refine ⟨fun h => ?_, fun h => ?_⟩
  · obtain ⟨certInfo, hcertInfo, h₁⟩ := bind_eq_ok.1 h
    obtain ⟨pubArea, hpubArea, h₂⟩ := bind_eq_ok.1 h₁
    obtain ⟨_, hversion, h₃⟩ := bind_eq_ok.1 h₂
    obtain ⟨credential, hcredential, h₄⟩ := bind_eq_ok.1 h₃
    obtain ⟨area, harea, h₅⟩ := bind_eq_ok.1 h₄
    obtain ⟨_, hkey, h₆⟩ := bind_eq_ok.1 h₅
    obtain ⟨attest, hattest, h₇⟩ := bind_eq_ok.1 h₆
    obtain ⟨_, hcheck, h₈⟩ := bind_eq_ok.1 h₇
    obtain ⟨certificates, hcertificates, h₉⟩ := bind_eq_ok.1 h₈
    obtain ⟨leaf, hleaf, h₁₀⟩ := bind_eq_ok.1 h₉
    obtain ⟨key, hpublicKey, h₁₁⟩ := bind_eq_ok.1 h₁₀
    obtain ⟨alg, halg, h₁₂⟩ := bind_eq_ok.1 h₁₁
    obtain ⟨_, hsignature, h₁₃⟩ := bind_eq_ok.1 h₁₂
    obtain ⟨device, hdevice, hfindings⟩ := bind_eq_ok.1 h₁₃
    -- The algorithm is looked up twice, for the hash and for the signature.
    obtain ⟨alg', digest, halg', hdigest, hcertification⟩ :=
      checkAttest_eq_ok.1 ⟨attest, hattest, hcheck⟩
    obtain rfl : alg = alg' := Except.ok.inj (halg.symm.trans (Algorithm.ofId_eq_ok.2 halg'))
    have hcredential := Registration.credential_eq_ok.1 hcredential
    have hversion : s.version = "2.0" := by simpa [supportedVersion] using hversion
    have harea := Tpm.PublicArea.parse_eq_ok_iff.1 harea
    have hdescribes := checkKey_eq_ok.1 hkey
    have hcertificates := attestationCertificates_eq_ok.1 hcertificates
    have hleaf := Certificate.leafCertificate_eq_ok.1 hleaf
    have hdevice := Certificate.askedDevice_eq_ok.1 hdevice
    cases pure_eq_ok.1 hfindings
    exact .intro hcredential hversion halg' hdigest (orError_eq_ok.1 hpubArea) harea hdescribes
      (orError_eq_ok.1 hcertInfo) hcertification hcertificates hleaf hpublicKey hsignature hdevice
  · obtain ⟨hcredential, hversion, halg, hdigest, hpubArea, harea, hkey, hcertInfo,
      hcertification, hcertificates, hleaf, hpublicKey, hsignature, hdevice⟩ := h
    obtain ⟨attest, hattest, hcheck⟩ := checkAttest_eq_ok.2 ⟨_, _, halg, hdigest, hcertification⟩
    refine bind_eq_ok.2 ⟨_, orError_eq_ok.2 hcertInfo, ?_⟩
    refine bind_eq_ok.2 ⟨_, orError_eq_ok.2 hpubArea, ?_⟩
    refine bind_eq_ok.2 ⟨(), by simpa [supportedVersion] using hversion, ?_⟩
    refine bind_eq_ok.2 ⟨_, Registration.credential_eq_ok.2 hcredential, ?_⟩
    refine bind_eq_ok.2 ⟨_, Tpm.PublicArea.parse_eq_ok_iff.2 harea, ?_⟩
    refine bind_eq_ok.2 ⟨(), checkKey_eq_ok.2 hkey, ?_⟩
    refine bind_eq_ok.2 ⟨attest, hattest, ?_⟩
    refine bind_eq_ok.2 ⟨(), hcheck, ?_⟩
    refine bind_eq_ok.2 ⟨_, attestationCertificates_eq_ok.2 hcertificates, ?_⟩
    refine bind_eq_ok.2 ⟨_, Certificate.leafCertificate_eq_ok.2 hleaf, ?_⟩
    refine bind_eq_ok.2 ⟨_, hpublicKey, ?_⟩
    refine bind_eq_ok.2 ⟨_, Algorithm.ofId_eq_ok.2 halg, ?_⟩
    refine bind_eq_ok.2 ⟨(), hsignature, ?_⟩
    exact bind_eq_ok.2 ⟨_, Certificate.askedDevice_eq_ok.2 hdevice, rfl⟩

/-- The certificates that are found are those of the statement. -/
theorem Reaches.certificates_eq {s : TpmStatement} {r : Registration} {f : Findings}
    (h : s.Reaches r f) : s.certificates = some f.certificates := by
  obtain ⟨-, -, -, -, -, -, -, -, -, hcertificates, -⟩ := h
  exact hcertificates

/-- The conditions are those before the policy is asked, its answer, and those after it. -/
theorem accepts_iff {policy : TpmDevicePolicy} {s : TpmStatement} {r : Registration} :
    s.Accepts policy r ↔ ∃ f, s.Reaches r f ∧ policy f.device = .ok () ∧ f.leaf.HasPurpose ∧
      f.leaf.NamesNoOtherModel f.credential.aaguid := by
  refine ⟨fun h => ?_, fun h => ?_⟩
  · obtain ⟨hcredential, hversion, halg, hdigest, hpubArea, harea, hkey, hcertInfo,
      hcertification, hcertificates, hleaf, hpublicKey, hsignature, hattestationKey, haaguid⟩ := h
    obtain ⟨device, hasked, hpolicy, hpurpose⟩ :=
      Certificate.isAttestationKey_iff.1 hattestationKey
    exact ⟨_, .intro hcredential hversion halg hdigest hpubArea harea hkey hcertInfo hcertification
      hcertificates hleaf hpublicKey hsignature hasked, hpolicy, hpurpose, haaguid⟩
  · obtain ⟨f, ⟨hcredential, hversion, halg, hdigest, hpubArea, harea, hkey, hcertInfo,
      hcertification, hcertificates, hleaf, hpublicKey, hsignature, hasked⟩, hpolicy, hpurpose,
      haaguid⟩ := h
    have hattestationKey := Certificate.isAttestationKey_iff.2 ⟨_, hasked, hpolicy, hpurpose⟩
    exact .intro hcredential hversion halg hdigest hpubArea harea hkey hcertInfo hcertification
      hcertificates hleaf hpublicKey hsignature hattestationKey haaguid

/-- After the policy come the purpose and the model of the certificate, and then the verdict. -/
theorem afterPolicy_eq_ok {f : Findings} {v : Verdict} :
    afterPolicy f = .ok v ↔ (f.leaf.HasPurpose ∧
      f.leaf.NamesNoOtherModel f.credential.aaguid) ∧ v = ⟨.attCa, some f.certificates⟩ := by
  simp only [afterPolicy, bind_eq_ok, Certificate.checkPurpose_eq_ok, checkAaguid_eq_ok,
    pure_eq_ok, exists_const, and_assoc]
  rw [eq_comm (a := v)]

/-- A statement is accepted if it meets the conditions, and attests its own certificates. -/
theorem verify_eq_ok {policy : TpmDevicePolicy} {s : TpmStatement} {r : Registration}
    {v : Verdict} :
    s.verify policy r = .ok v ↔ s.Accepts policy r ∧ v = ⟨.attCa, s.certificates⟩ := by
  rw [verify_eq, accepts_iff]
  refine ⟨fun h => ?_, fun h => ?_⟩
  · obtain ⟨f, hf, h₁⟩ := bind_eq_ok.1 h
    obtain ⟨_, hpolicy, h₂⟩ := bind_eq_ok.1 h₁
    obtain ⟨hafter, rfl⟩ := afterPolicy_eq_ok.1 h₂
    have hreaches := beforePolicy_eq_ok.1 hf
    rw [hreaches.certificates_eq]
    exact ⟨⟨f, hreaches, Certificate.policy_check_eq_ok.1 hpolicy, hafter⟩, rfl⟩
  · rcases h with ⟨⟨f, hreaches, hpolicy, hafter⟩, rfl⟩
    refine bind_eq_ok.2 ⟨f, beforePolicy_eq_ok.2 hreaches, ?_⟩
    refine bind_eq_ok.2 ⟨(), Certificate.policy_check_eq_ok.2 hpolicy, ?_⟩
    rw [hreaches.certificates_eq]
    exact afterPolicy_eq_ok.2 ⟨hafter, rfl⟩

end TpmStatement

end Attestation
