import Attestation.Proofs.Validator
import Attestation.Proofs.Verification.AndroidKey
import Attestation.Proofs.Verification.Apple
import Attestation.Proofs.Verification.FidoU2f
import Attestation.Proofs.Verification.Packed
import Attestation.Proofs.Verification.SafetyNet
import Attestation.Proofs.Verification.Tpm

/-!
# What a verdict says

`Registration.VerifiedAs` has one constructor for each way in which the built-in validators come to
a verdict, and says which key of which list of certificates has been checked on that way. A verdict
of a verifier without other validators comes about in one of these ways (`Verifier.verdict_cases`).
So the certificates that a relying party gets as trust path are those whose first one was checked,
and there is none only where no certificate has a part in the attestation.
-/

namespace Attestation

/-- The list begins with one whole certificate, of the given key. -/
inductive CertifiesKey (certs : List Bytes) (key : PublicKey) : Prop
  | intro {leaf : Certificate} :
    BeginsWith certs leaf → leaf.publicKey = .ok key → CertifiesKey certs key

/-- Certificates that certify a key are not none. -/
theorem CertifiesKey.ne_nil {certs : List Bytes} {key : PublicKey} (h : CertifiesKey certs key) :
    certs ≠ [] := by
  obtain ⟨⟨der, rest, rfl, -⟩, -⟩ := h
  exact List.cons_ne_nil der rest

namespace Registration

/-- The ways in which a registration is verified, with the verdict of each: for every way but two
the trust path is a list of certificates, and the key of the first one has signed what the format
says, or else is the credential key. -/
inductive VerifiedAs (r : Registration) : Verdict → Prop
  | none : r.statement = .none → VerifiedAs r ⟨.none, Option.none⟩
  | packedSelf {s : PackedStatement} {credential : AttestedCredential} {alg : Algorithm} :
    r.statement = .packed s → s.certificates = Option.none → s.keyIdentifier = Option.none →
    r.object.authData.credential = some credential → Algorithm.ofId? s.alg = some alg →
    alg.verify (.ofCredential credential.key) r.signedData s.signature = .ok () →
    VerifiedAs r ⟨.selfAttestation, Option.none⟩
  | packed {s : PackedStatement} {certs : List Bytes} {key : PublicKey} {alg : Algorithm} :
    r.statement = .packed s → s.certificates = some certs → s.keyIdentifier = Option.none →
    CertifiesKey certs key → Algorithm.ofId? s.alg = some alg →
    alg.verify key r.signedData s.signature = .ok () → VerifiedAs r ⟨.basic, some certs⟩
  | tpm {s : TpmStatement} {certs : List Bytes} {key : PublicKey} {alg : Algorithm}
      {certInfo : Bytes} :
    r.statement = .tpm s → s.certificates = some certs → CertifiesKey certs key →
    Algorithm.ofId? s.alg = some alg → s.certInfo = some certInfo →
    alg.verify key certInfo s.signature = .ok () → VerifiedAs r ⟨.attCa, some certs⟩
  | fidoU2f {s : FidoU2fStatement} {key : PublicKey} {credential : AttestedCredential}
      {alg : Option Int} {x y : Bytes} :
    r.statement = .fidoU2f s → CertifiesKey s.certificates key →
    r.object.authData.credential = some credential → credential.key = .ec2 alg .p256 x y →
    Algorithm.es256.verify key (FidoU2fStatement.message r.object.authData.rpIdHash
      r.clientDataHash credential.id x y) s.signature = .ok () →
    VerifiedAs r ⟨.basic, some s.certificates⟩
  | androidKey {s : AndroidKeyStatement} {key : PublicKey} {alg : Algorithm} :
    r.statement = .androidKey s → CertifiesKey s.certificates key →
    Algorithm.ofId? s.alg = some alg → alg.verify key r.signedData s.signature = .ok () →
    VerifiedAs r ⟨.basic, some s.certificates⟩
  | apple {s : AppleStatement} {key : PublicKey} {credential : AttestedCredential} :
    r.statement = .apple s → CertifiesKey s.certificates key →
    r.object.authData.credential = some credential → credential.key.denotes key = .ok true →
    VerifiedAs r ⟨.anonCa, some s.certificates⟩
  | safetyNet {s : SafetyNetStatement} {token : SafetyNet.Token} {header : SafetyNet.TokenHeader}
      {texts : List String} {certs : List Bytes} {key : PublicKey} :
    r.statement = .androidSafetyNet s → SafetyNet.Token.parse s.response = .ok (token, header) →
    header.certificates = some texts →
    texts.map (fun s => Base64.decode Base64.standard (Bytes.ofText s)) = certs.map some →
    CertifiesKey certs key → token.verify header.alg key = .ok () →
    VerifiedAs r ⟨.basic, some certs⟩

variable {r : Registration} {v : Verdict}

/-- A trust path begins with a certificate. -/
theorem VerifiedAs.certifiesKey (h : r.VerifiedAs v) {certs : List Bytes}
    (hpath : v.trustPath = some certs) : ∃ key, CertifiesKey certs key := by
  cases h with
  | none | packedSelf => cases hpath
  | packed _ _ _ hkey | tpm _ _ hkey | fidoU2f _ hkey | androidKey _ hkey | apple _ hkey
  | safetyNet _ _ _ _ hkey =>
    cases hpath
    exact ⟨_, hkey⟩

/-- A packed attestation has a trust path unless the statement names no key but the credential
key. -/
theorem VerifiedAs.packed_cases (h : r.VerifiedAs v) {s : PackedStatement}
    (hs : r.statement = .packed s) :
    s.keyIdentifier = Option.none ∧
      (s.certificates = Option.none ∧ v = ⟨.selfAttestation, Option.none⟩ ∨
        ∃ certs, s.certificates = some certs ∧ v = ⟨.basic, some certs⟩) := by
  cases h with
  | packedSelf hs' hcerts hidentifier =>
    cases hs.symm.trans hs'
    exact ⟨hidentifier, .inl ⟨hcerts, rfl⟩⟩
  | packed hs' hcerts hidentifier =>
    cases hs.symm.trans hs'
    exact ⟨hidentifier, .inr ⟨_, hcerts, rfl⟩⟩
  | none hs' | tpm hs' | fidoU2f hs' | androidKey hs' | apple hs' | safetyNet hs' =>
    cases hs.symm.trans hs'

/-- Group signatures are not verified, so no verdict is of that type. -/
theorem VerifiedAs.type_ne_ecdaa (h : r.VerifiedAs v) : v.type ≠ .ecdaa := by
  cases h <;> nofun

end Registration

/-- Whatever the procedure of the statement's format accepts, there is an attested credential, and
the verdict comes about in one of the ways. -/
theorem Format.verifiedAs_of_verify {config : Config} {now : Instant} {r : Registration}
    {v : Verdict} (h : r.statement.format.verify config now r = .ok v) :
    (∃ credential, r.object.authData.credential = some credential) ∧ r.VerifiedAs v := by
  rw [Format.verify_own] at h
  cases hs : r.statement with
  | none =>
    rw [hs] at h
    obtain ⟨credential, hcredential, rfl⟩ := map_eq_ok.1 h
    exact ⟨⟨credential, Registration.credential_eq_ok.1 hcredential⟩, .none hs⟩
  | tpm s =>
    rw [hs] at h
    obtain ⟨haccepts, rfl⟩ := TpmStatement.verify_eq_ok.1 h
    obtain ⟨hcredential, -, halg, -, -, -, -, hcertInfo, -, hcerts, hleaf, hkey, hsignature, -⟩ :=
      haccepts
    rw [hcerts]
    exact ⟨⟨_, hcredential⟩, .tpm hs hcerts ⟨hleaf, hkey⟩ halg hcertInfo hsignature⟩
  | packed s =>
    rw [hs] at h
    cases PackedStatement.verify_eq_ok.1 h with
    | certified hcredential halg hcerts hidentifier hleaf hkey hsignature =>
      exact ⟨⟨_, hcredential⟩, .packed hs hcerts hidentifier ⟨hleaf, hkey⟩ halg hsignature⟩
    | self hcredential halg hcerts hidentifier _ hsignature =>
      exact ⟨⟨_, hcredential⟩, .packedSelf hs hcerts hidentifier hcredential halg hsignature⟩
  | androidKey s =>
    rw [hs] at h
    obtain ⟨⟨hcredential, hleaf, hkey, halg, hsignature, -⟩, rfl⟩ :=
      AndroidKeyStatement.verify_eq_ok.1 h
    exact ⟨⟨_, hcredential⟩, .androidKey hs ⟨hleaf, hkey⟩ halg hsignature⟩
  | androidSafetyNet s =>
    rw [hs] at h
    obtain ⟨certs, ⟨hcredential, -, -, hlayout, hheader, hcerts, hleaf, hkey, hsignature, -⟩,
      rfl⟩ := SafetyNetStatement.verify_eq_ok.1 h
    -- The verdict is told by what the procedure computes, from the bytes of the response.
    have htoken := SafetyNet.Token.parse_eq_ok_iff.2 ⟨hlayout, hheader⟩
    obtain ⟨texts, htexts, hdecoded⟩ := hcerts
    have hdecoded := SafetyNetStatement.map_decode_eq_iff.2 hdecoded
    exact ⟨⟨_, hcredential⟩, .safetyNet hs htoken htexts hdecoded ⟨hleaf, hkey⟩
      (SafetyNet.Token.verify_eq_ok.2 hsignature)⟩
  | fidoU2f s =>
    rw [hs] at h
    obtain ⟨⟨-, hleaf, hkey, hcredential, hpoint, -, -, hsignature⟩, rfl⟩ :=
      FidoU2fStatement.verify_eq_ok.1 h
    exact ⟨⟨_, hcredential⟩, .fidoU2f hs ⟨hleaf, hkey⟩ hcredential hpoint hsignature⟩
  | apple s =>
    rw [hs] at h
    obtain ⟨⟨hcredential, hleaf, -, hkey, hdenotes⟩, rfl⟩ := AppleStatement.verify_eq_ok.1 h
    have hdenotes := CredentialKey.denotes_eq_true_iff.2 hdenotes
    exact ⟨⟨_, hcredential⟩, .apple hs ⟨hleaf, hkey⟩ hcredential hdenotes⟩

/-- A verdict of a verifier to which no validator was added comes about in one of the ways, from a
registration with an attested credential. Its trust path, if there is one, begins with a
certificate. A packed attestation is one by the credential key exactly if the statement has neither
certificates nor the identifier of a key for group signatures, and these are not verified. -/
theorem Verifier.verdict_cases {verifier : Verifier} {now : Instant} {r : Registration}
    {v : Verdict} (hadded : verifier.added = []) (h : verifier.verify now r = .ok v) :
    (∃ credential, r.object.authData.credential = some credential) ∧ r.VerifiedAs v ∧
      (∀ certs, v.trustPath = some certs → certs ≠ [] ∧ ∃ key, CertifiesKey certs key) ∧
      (∀ s, r.statement = .packed s → s.keyIdentifier = none ∧
        (v = ⟨.selfAttestation, none⟩ ↔ s.certificates = none ∧ s.keyIdentifier = none)) ∧
      v.type ≠ .ecdaa := by
  rw [Verifier.verify_of_added_eq_nil hadded] at h
  obtain ⟨hcredential, hverified⟩ := Format.verifiedAs_of_verify h
  refine ⟨hcredential, hverified, fun certs hpath => ?_, fun s hs => ?_, hverified.type_ne_ecdaa⟩
  · obtain ⟨key, hkey⟩ := hverified.certifiesKey hpath
    exact ⟨hkey.ne_nil, key, hkey⟩
  · obtain ⟨hidentifier, ⟨hcerts, rfl⟩ | ⟨certs, hcerts, rfl⟩⟩ := hverified.packed_cases hs
    · exact ⟨hidentifier, by simp [hcerts, hidentifier]⟩
    · exact ⟨hidentifier, by simp [hcerts]⟩

/-- The sample of an anonymous attestation. -/
theorem Verifier.verdict_cases_sample :
    ({} : Verifier).added = [] ∧
      ({} : Verifier).verify ⟨0⟩ AppleSample.registration =
        .ok ⟨.anonCa, some AppleSample.statement.certificates⟩ ∧
      AppleSample.registration.VerifiedAs ⟨.anonCa, some AppleSample.statement.certificates⟩ ∧
      ∃ key, CertifiesKey AppleSample.statement.certificates key := by
  have hverify : ({} : Verifier).verify ⟨0⟩ AppleSample.registration =
      .ok ⟨.anonCa, some AppleSample.statement.certificates⟩ := by
    rw [Verifier.verify_of_added_eq_nil rfl]
    exact AppleSample.verify_eq_ok
  obtain ⟨-, hverified, hpath, -, -⟩ := Verifier.verdict_cases rfl hverify
  exact ⟨rfl, hverify, hverified, (hpath _ rfl).2⟩

end Attestation
