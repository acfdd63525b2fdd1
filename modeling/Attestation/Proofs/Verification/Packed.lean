import Attestation.Proofs.Certificate.Extension
import Attestation.Proofs.Registration
import Attestation.Proofs.Signature
import Attestation.Proofs.Validator
import Attestation.Verification.Packed

/-!
# What the verification of a packed attestation accepts

`Certificate.IsAuthenticator` is what the certificate of an authenticator has to say.
`PackedStatement.Accepts` has one constructor for each of the two ways to a verdict, by the key of
such a certificate and by the credential key, and a statement is accepted exactly if one of them is
open (`packed_validate_eq_ok_iff`). Which one it is, is told by the fields that the statement has,
so there is no choice between them.
-/

namespace Attestation

/-! ## Certificates of authenticators -/

namespace Certificate

/-- The certificate is one of an authenticator of the given model. Its version is 3, which is
written as 2, and it is no authority. Its subject has a country, an organization and a common name,
and the first organizational unit is the one of authenticators. The first extension that names a
model, if there is one, names this one and is not critical. -/
structure IsAuthenticator (c : Certificate) (aaguid : Bytes) : Prop where
  version : c.version = 2
  country : ∃ a ∈ c.subject, a.id = NameAttribute.country
  organization : ∃ a ∈ c.subject, a.id = NameAttribute.organization
  commonName : ∃ a ∈ c.subject, a.id = NameAttribute.commonName
  unit : ∃ a, c.subject.first? NameAttribute.organizationalUnit = some a ∧
    a.text? = some "Authenticator Attestation"
  notAuthority : c.NotAuthority
  model : c.NamesNoOtherModel aaguid
  uncritical : ∀ e, c.extension? aaguidId = some e → e.critical = false

variable {c : Certificate} {aaguid : Bytes} {u : Unit}

/-- An attribute of the subject is found exactly if there is one. -/
theorem exists_subjectAttribute_eq_ok {id : Bytes} {name : String} :
    (∃ a, c.subjectAttribute id name = .ok a) ↔ ∃ a ∈ c.subject, a.id = id := by
  simp only [subjectAttribute, orFault_eq_ok, DistinguishedName.first?,
    ← Option.isSome_iff_exists, List.find?_isSome, beq_iff_eq]

/-- The first extension for the model must name no other model and not be critical. -/
theorem checkAaguid_eq_ok :
    c.checkAaguid aaguid = .ok u ↔
      c.NamesNoOtherModel aaguid ∧ ∀ e, c.extension? aaguidId = some e → e.critical = false := by
  rw [checkAaguid, bind_eq_ok]
  refine ⟨fun h => ?_, fun h => ?_⟩
  · obtain ⟨found, hfound, hcheck⟩ := h
    rcases aaguid_eq_ok.1 hfound with ⟨hnone, rfl⟩ | ⟨e, b, he, hb, rfl⟩
    · refine ⟨fun e he => ?_, fun e he => ?_⟩
      all_goals cases hnone.symm.trans he
    · obtain ⟨_, hcritical, hmatch⟩ := bind_eq_ok.1 hcheck
      have hcritical : e.critical = false := by simpa using hcritical
      obtain rfl : b = aaguid := by simpa using hmatch
      refine ⟨fun e' he' => ?_, fun e' he' => ?_⟩
      · cases he.symm.trans he'
        exact aaguidOf_eq_ok.1 hb
      · cases he.symm.trans he'
        exact hcritical
  · obtain ⟨hmodel, hcritical⟩ := h
    cases he : c.extension? aaguidId with
    | none => exact ⟨none, aaguid_eq_ok.2 (.inl ⟨he, rfl⟩), rfl⟩
    | some e =>
      have hmodel := aaguidOf_eq_ok.2 (hmodel e he)
      refine ⟨some ⟨aaguid, e.critical⟩, aaguid_eq_ok.2 (.inr ⟨e, aaguid, he, hmodel, rfl⟩), ?_⟩
      exact bind_eq_ok.2 ⟨(), by simpa using hcritical e he, by simp⟩

/-- A certificate passes if it is one of an authenticator of the model. -/
theorem checkAuthenticator_eq_ok :
    c.checkAuthenticator aaguid = .ok u ↔ c.IsAuthenticator aaguid := by
  refine ⟨fun h => ?_, fun h => ?_⟩
  · obtain ⟨_, hversion, h₁⟩ := bind_eq_ok.1 h
    obtain ⟨_, hcountry, h₂⟩ := bind_eq_ok.1 h₁
    obtain ⟨_, horganization, h₃⟩ := bind_eq_ok.1 h₂
    obtain ⟨_, hcommonName, h₄⟩ := bind_eq_ok.1 h₃
    obtain ⟨unit, hunit, h₅⟩ := bind_eq_ok.1 h₄
    obtain ⟨text, htext, h₆⟩ := bind_eq_ok.1 h₅
    obtain ⟨_, hname, h₇⟩ := bind_eq_ok.1 h₆
    obtain ⟨_, hauthority, hmodel⟩ := bind_eq_ok.1 h₇
    -- Of the first three attributes it only matters that they are there.
    obtain ⟨country, hcountry, -⟩ := map_eq_ok.1 hcountry
    obtain ⟨organization, horganization, -⟩ := map_eq_ok.1 horganization
    obtain ⟨commonName, hcommonName, -⟩ := map_eq_ok.1 hcommonName
    obtain rfl : text = authenticatorUnit := by simpa using hname
    obtain ⟨hmodel, huncritical⟩ := checkAaguid_eq_ok.1 hmodel
    exact {
      version := requireVersion3_eq_ok.1 hversion
      country := exists_subjectAttribute_eq_ok.1 ⟨_, hcountry⟩
      organization := exists_subjectAttribute_eq_ok.1 ⟨_, horganization⟩
      commonName := exists_subjectAttribute_eq_ok.1 ⟨_, hcommonName⟩
      unit := ⟨unit, orFault_eq_ok.1 hunit, orFault_eq_ok.1 htext⟩
      notAuthority := requireNotAuthority_eq_ok.1 hauthority
      model := hmodel
      uncritical := huncritical }
  · obtain ⟨country, hcountry⟩ := exists_subjectAttribute_eq_ok.2 h.country
    obtain ⟨organization, horganization⟩ := exists_subjectAttribute_eq_ok.2 h.organization
    obtain ⟨commonName, hcommonName⟩ := exists_subjectAttribute_eq_ok.2 h.commonName
    obtain ⟨unit, hunit, htext⟩ := h.unit
    refine bind_eq_ok.2 ⟨(), requireVersion3_eq_ok.2 h.version, ?_⟩
    refine bind_eq_ok.2 ⟨(), map_eq_ok.2 ⟨country, hcountry, rfl⟩, ?_⟩
    refine bind_eq_ok.2 ⟨(), map_eq_ok.2 ⟨organization, horganization, rfl⟩, ?_⟩
    refine bind_eq_ok.2 ⟨(), map_eq_ok.2 ⟨commonName, hcommonName, rfl⟩, ?_⟩
    refine bind_eq_ok.2 ⟨unit, orFault_eq_ok.2 hunit, ?_⟩
    refine bind_eq_ok.2 ⟨authenticatorUnit, orFault_eq_ok.2 htext, ?_⟩
    refine bind_eq_ok.2 ⟨(), require_eq_ok.2 (beq_self_eq_true _), ?_⟩
    refine bind_eq_ok.2 ⟨(), requireNotAuthority_eq_ok.2 h.notAuthority, ?_⟩
    exact checkAaguid_eq_ok.2 ⟨h.model, h.uncritical⟩

end Certificate

/-! ## Statements -/

namespace PackedStatement

/-- The credential key or the key of the first certificate, which is the one of an authenticator of
the same model, has signed the signed data. -/
inductive Accepts (s : PackedStatement) (r : Registration) : Verdict → Prop
  | certified {credential : AttestedCredential} {alg : Algorithm} {certs : List Bytes}
      {leaf : Certificate} {key : PublicKey} :
    r.object.authData.credential = some credential → Algorithm.ofId? s.alg = some alg →
    s.certificates = some certs → s.keyIdentifier = none → BeginsWith certs leaf →
    leaf.publicKey = .ok key → alg.verify key r.signedData s.signature = .ok () →
    leaf.IsAuthenticator credential.aaguid → Accepts s r ⟨.basic, some certs⟩
  | self {credential : AttestedCredential} {alg : Algorithm} :
    r.object.authData.credential = some credential → Algorithm.ofId? s.alg = some alg →
    s.certificates = none → s.keyIdentifier = none → credential.key.alg = some s.alg →
    alg.verify (.ofCredential credential.key) r.signedData s.signature = .ok () →
    Accepts s r ⟨.selfAttestation, none⟩

/-- A statement with certificates is accepted if the first one verifies the signature and is one of
an authenticator. -/
theorem verifyCertified_eq_ok {s : PackedStatement} {r : Registration}
    {credential : AttestedCredential} {alg : Algorithm} {certs : List Bytes} {v : Verdict} :
    s.verifyCertified r credential alg certs = .ok v ↔
      (∃ leaf key, BeginsWith certs leaf ∧ leaf.publicKey = .ok key ∧
        alg.verify key r.signedData s.signature = .ok () ∧
        leaf.IsAuthenticator credential.aaguid) ∧ v = ⟨.basic, some certs⟩ := by
  refine ⟨fun h => ?_, fun h => ?_⟩
  · obtain ⟨leaf, hleaf, h₁⟩ := bind_eq_ok.1 h
    obtain ⟨key, hkey, h₂⟩ := bind_eq_ok.1 h₁
    obtain ⟨_, hsignature, h₃⟩ := bind_eq_ok.1 h₂
    obtain ⟨_, hauthenticator, hverdict⟩ := bind_eq_ok.1 h₃
    have hleaf := Certificate.leafCertificate_eq_ok.1 hleaf
    have hauthenticator := Certificate.checkAuthenticator_eq_ok.1 hauthenticator
    exact ⟨⟨leaf, key, hleaf, hkey, hsignature, hauthenticator⟩, (pure_eq_ok.1 hverdict).symm⟩
  · rcases h with ⟨⟨leaf, key, hleaf, hkey, hsignature, hauthenticator⟩, rfl⟩
    refine bind_eq_ok.2 ⟨leaf, Certificate.leafCertificate_eq_ok.2 hleaf, ?_⟩
    refine bind_eq_ok.2 ⟨key, hkey, bind_eq_ok.2 ⟨(), hsignature, ?_⟩⟩
    exact bind_eq_ok.2 ⟨(), Certificate.checkAuthenticator_eq_ok.2 hauthenticator, rfl⟩

/-- A statement without certificates is accepted if the credential key verifies the signature with
its own algorithm. -/
theorem verifySelf_eq_ok {s : PackedStatement} {r : Registration} {credential : AttestedCredential}
    {alg : Algorithm} {v : Verdict} :
    s.verifySelf r credential alg = .ok v ↔
      (credential.key.alg = some s.alg ∧
        alg.verify (.ofCredential credential.key) r.signedData s.signature = .ok ()) ∧
      v = ⟨.selfAttestation, none⟩ := by
  refine ⟨fun h => ?_, fun h => ?_⟩
  · obtain ⟨_, halg, h₁⟩ := bind_eq_ok.1 h
    obtain ⟨_, hsignature, hverdict⟩ := bind_eq_ok.1 h₁
    have halg : credential.key.alg = some s.alg := by simpa using halg
    exact ⟨⟨halg, hsignature⟩, (pure_eq_ok.1 hverdict).symm⟩
  · rcases h with ⟨⟨halg, hsignature⟩, rfl⟩
    refine bind_eq_ok.2 ⟨(), by simpa using halg, ?_⟩
    exact bind_eq_ok.2 ⟨(), hsignature, rfl⟩

/-- A packed statement is accepted exactly in one of the two ways. -/
theorem verify_eq_ok {s : PackedStatement} {r : Registration} {v : Verdict} :
    s.verify r = .ok v ↔ s.Accepts r v := by
  refine ⟨fun h => ?_, fun h => ?_⟩
  · obtain ⟨credential, hcredential, h₁⟩ := bind_eq_ok.1 h
    obtain ⟨alg, halg, h₂⟩ := bind_eq_ok.1 h₁
    have hcredential := Registration.credential_eq_ok.1 hcredential
    have halg := Algorithm.ofId_eq_ok.1 halg
    split at h₂
    · rename_i certs hcerts hidentifier
      obtain ⟨⟨leaf, key, hleaf, hkey, hsignature, hauthenticator⟩, rfl⟩ :=
        verifyCertified_eq_ok.1 h₂
      exact .certified hcredential halg hcerts hidentifier hleaf hkey hsignature hauthenticator
    · cases h₂
    · rename_i hcerts hidentifier
      obtain ⟨⟨hkeyAlg, hsignature⟩, rfl⟩ := verifySelf_eq_ok.1 h₂
      exact .self hcredential halg hcerts hidentifier hkeyAlg hsignature
    · cases h₂
  · cases h with
    | certified hcredential halg hcerts hidentifier hleaf hkey hsignature hauthenticator =>
      refine bind_eq_ok.2 ⟨_, Registration.credential_eq_ok.2 hcredential, ?_⟩
      refine bind_eq_ok.2 ⟨_, Algorithm.ofId_eq_ok.2 halg, ?_⟩
      rw [hcerts, hidentifier]
      exact verifyCertified_eq_ok.2 ⟨⟨_, _, hleaf, hkey, hsignature, hauthenticator⟩, rfl⟩
    | self hcredential halg hcerts hidentifier hkeyAlg hsignature =>
      refine bind_eq_ok.2 ⟨_, Registration.credential_eq_ok.2 hcredential, ?_⟩
      refine bind_eq_ok.2 ⟨_, Algorithm.ofId_eq_ok.2 halg, ?_⟩
      rw [hcerts, hidentifier]
      exact verifySelf_eq_ok.2 ⟨⟨hkeyAlg, hsignature⟩, rfl⟩

end PackedStatement

end Attestation
