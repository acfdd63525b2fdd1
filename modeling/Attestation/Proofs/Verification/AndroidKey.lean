import Attestation.Proofs.Certificate.Extension
import Attestation.Proofs.KeyValue
import Attestation.Proofs.Registration
import Attestation.Proofs.Signature
import Attestation.Proofs.Validator
import Attestation.Verification.AndroidKey

/-!
# What the verification of an Android key accepts

`KeyDescription.Fits` is what the description of the key has to say. Where software and the trusted
environment both say something, the origin is the one that the trusted environment gives, while each
of them may add a purpose (`KeyDescription.Generated`, `KeyDescription.Signing`).
`AndroidKeyStatement.Accepts` is all the conditions on a statement and the registration with it, and
a statement is accepted exactly if they hold (`androidKey_validate_eq_ok_iff`).
-/

namespace Attestation

namespace KeyDescription

/-- The key was generated in the keystore, which is the origin 0: the trusted environment says so,
or it says nothing and software does, whose word does not count where `teeOnly` holds. -/
inductive Generated (d : KeyDescription) : (teeOnly : Bool) → Prop
  | tee {teeOnly : Bool} : d.teeEnforced.origin = some 0 → Generated d teeOnly
  | software : d.teeEnforced.origin = none → d.softwareEnforced.origin = some 0 → Generated d false

/-- The key may sign, which is the purpose 2: it is among those that the trusted environment gives,
or that software gives, which do not count where `teeOnly` holds. -/
inductive Signing (d : KeyDescription) : (teeOnly : Bool) → Prop
  | tee {teeOnly : Bool} : 2 ∈ d.teeEnforced.purposes → Signing d teeOnly
  | software : 2 ∈ d.softwareEnforced.purposes → Signing d false

/-- The description says what a verification asks for: its challenge is the client data, no list
leaves the key to all applications, and the key was generated in the keystore, for signing. -/
structure Fits (d : KeyDescription) (teeOnly : Bool) (clientDataHash : Bytes) : Prop where
  challenge : d.challenge = clientDataHash
  software : d.softwareEnforced.allApplications = false
  tee : d.teeEnforced.allApplications = false
  generated : d.Generated teeOnly
  signing : d.Signing teeOnly

variable {d : KeyDescription} {teeOnly : Bool}

/-- The key was generated where the lists that count say so. -/
theorem isGenerated_iff : d.isGenerated teeOnly = true ↔ d.Generated teeOnly := by
  unfold isGenerated
  refine ⟨fun h => ?_, fun h => ?_⟩
  · cases teeOnly with
    | true => exact .tee (beq_iff_eq.1 h)
    | false =>
      cases htee : d.teeEnforced.origin with
      | some origin =>
        simp only [htee] at h
        exact .tee (htee.trans (beq_iff_eq.1 h))
      | none =>
        simp only [htee] at h
        exact .software htee (beq_iff_eq.1 h)
  · cases h with
    | tee htee => cases teeOnly <;> simp [htee, generatedOrigin]
    | software htee hsoftware => simp [htee, hsoftware, generatedOrigin]

/-- The key is one for signatures where the lists that count say so. -/
theorem isSigning_iff : d.isSigning teeOnly = true ↔ d.Signing teeOnly := by
  unfold isSigning signingPurpose
  refine ⟨fun h => ?_, fun h => ?_⟩
  · rcases Bool.or_eq_true_iff.1 h with htee | hsoftware
    · exact .tee (by simpa using htee)
    · obtain ⟨hteeOnly, hsoftware⟩ := Bool.and_eq_true_iff.1 hsoftware
      obtain rfl : teeOnly = false := by simpa using hteeOnly
      exact .software (by simpa using hsoftware)
  · cases h with
    | tee htee => simp [htee]
    | software hsoftware => simp [hsoftware]

/-- A description passes if it fits. -/
theorem check_eq_ok {clientDataHash : Bytes} {u : Unit} :
    d.check teeOnly clientDataHash = .ok u ↔ d.Fits teeOnly clientDataHash := by
  refine ⟨fun h => ?_, fun h => ?_⟩
  · obtain ⟨_, hchallenge, h₁⟩ := bind_eq_ok.1 h
    obtain ⟨_, happlications, h₂⟩ := bind_eq_ok.1 h₁
    obtain ⟨_, hgenerated, hsigning⟩ := bind_eq_ok.1 h₂
    simp only [ensure_eq_ok, beq_iff_eq, Bool.not_eq_true', Bool.or_eq_false_iff] at *
    exact ⟨hchallenge, happlications.1, happlications.2, isGenerated_iff.1 hgenerated,
      isSigning_iff.1 hsigning⟩
  · rcases h with ⟨hchallenge, hsoftware, htee, hgenerated, hsigning⟩
    refine bind_eq_ok.2 ⟨(), by simpa using hchallenge, ?_⟩
    refine bind_eq_ok.2 ⟨(), by simp [hsoftware, htee], ?_⟩
    refine bind_eq_ok.2 ⟨(), by simpa using isGenerated_iff.2 hgenerated, ?_⟩
    simpa using isSigning_iff.2 hsigning

end KeyDescription

namespace AndroidKeyStatement

/-- The key of the first certificate is the credential key and has signed the signed data, and the
description of the key fits. -/
inductive Accepts (teeOnly : Bool) (s : AndroidKeyStatement) (r : Registration) : Prop
  | intro {credential : AttestedCredential} {leaf : Certificate} {key : PublicKey}
      {alg : Algorithm} {description : KeyDescription} :
    r.object.authData.credential = some credential → BeginsWith s.certificates leaf →
    leaf.publicKey = .ok key → Algorithm.ofId? s.alg = some alg →
    alg.verify key r.signedData s.signature = .ok () → credential.key.Denotes key →
    leaf.keyDescription = .ok description → description.Fits teeOnly r.clientDataHash →
    Accepts teeOnly s r

/-- A statement with a described key is accepted exactly if all conditions hold. -/
theorem verify_eq_ok {teeOnly : Bool} {s : AndroidKeyStatement} {r : Registration} {v : Verdict} :
    s.verify teeOnly r = .ok v ↔ s.Accepts teeOnly r ∧ v = ⟨.basic, some s.certificates⟩ := by
  refine ⟨fun h => ?_, fun h => ?_⟩
  · obtain ⟨credential, hcredential, h₁⟩ := bind_eq_ok.1 h
    obtain ⟨leaf, hleaf, h₂⟩ := bind_eq_ok.1 h₁
    obtain ⟨key, hkey, h₃⟩ := bind_eq_ok.1 h₂
    obtain ⟨alg, halg, h₄⟩ := bind_eq_ok.1 h₃
    obtain ⟨_, hsignature, h₅⟩ := bind_eq_ok.1 h₄
    obtain ⟨denoted, hdenotes, h₆⟩ := bind_eq_ok.1 h₅
    obtain ⟨_, hdenoted, h₇⟩ := bind_eq_ok.1 h₆
    obtain ⟨description, hdescription, h₈⟩ := bind_eq_ok.1 h₇
    obtain ⟨_, hcheck, hverdict⟩ := bind_eq_ok.1 h₈
    obtain rfl := ensure_eq_ok.1 hdenoted
    have hcredential := Registration.credential_eq_ok.1 hcredential
    have hleaf := Certificate.leafCertificate_eq_ok.1 hleaf
    have halg := Algorithm.ofId_eq_ok.1 halg
    have hdenotes := CredentialKey.denotes_eq_true_iff.1 hdenotes
    have hfits := KeyDescription.check_eq_ok.1 hcheck
    exact ⟨.intro hcredential hleaf hkey halg hsignature hdenotes hdescription hfits,
      (pure_eq_ok.1 hverdict).symm⟩
  · rcases h with ⟨⟨hcredential, hleaf, hkey, halg, hsignature, hdenotes, hdescription, hfits⟩, rfl⟩
    refine bind_eq_ok.2 ⟨_, Registration.credential_eq_ok.2 hcredential, ?_⟩
    refine bind_eq_ok.2 ⟨_, Certificate.leafCertificate_eq_ok.2 hleaf, ?_⟩
    refine bind_eq_ok.2 ⟨_, hkey, bind_eq_ok.2 ⟨_, Algorithm.ofId_eq_ok.2 halg, ?_⟩⟩
    refine bind_eq_ok.2 ⟨(), hsignature, ?_⟩
    refine bind_eq_ok.2 ⟨true, CredentialKey.denotes_eq_true_iff.2 hdenotes, ?_⟩
    refine bind_eq_ok.2 ⟨(), rfl, bind_eq_ok.2 ⟨_, hdescription, ?_⟩⟩
    exact bind_eq_ok.2 ⟨(), KeyDescription.check_eq_ok.2 hfits, rfl⟩

end AndroidKeyStatement

/-- The validator for attestations of Android keys accepts exactly the statements of its format that
meet the conditions, and its verdict is a basic attestation by the certificates of the statement. -/
theorem androidKey_validate_eq_ok_iff {config : Config} {now : Instant} {r : Registration}
    {v : Verdict} :
    (Validator.builtIn config now .androidKey).validate r = .ok v ↔
      ∃ s, r.statement = .androidKey s ∧ s.Accepts config.teeOnly r ∧
        v = ⟨.basic, some s.certificates⟩ := by
  have hformat (statement : Statement) :
      statement.format = .androidKey ↔ ∃ s, statement = .androidKey s := by
    cases statement <;> simp [Statement.format]
  rw [Validator.builtIn_eq_ok_iff .androidKey (fun s => s.verify config.teeOnly r) hformat
    fun s hs => by simp [Format.verify, hs]]
  exact exists_congr fun s => and_congr_right fun _ => AndroidKeyStatement.verify_eq_ok

end Attestation
