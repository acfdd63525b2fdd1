import Attestation.Proofs.Verification.AndroidKey
import Attestation.Proofs.Verification.Apple
import Attestation.Proofs.Verification.SafetyNet
import Attestation.Proofs.Verification.Tpm

/-!
# What a statement is bound to

A statement that is accepted for two registrations binds them to each other, whatever the
configurations and the times of the two verifications were: all that is compared with the signed
data, with the client data or with the credential key is read from the statement alone, so that it
is the same both times (`accepted_twice`). Where it is a hash of the signed data, the data are the
same unless they are a collision of the hash function.
-/

namespace Attestation

/-- The messages are a collision of the hash function. -/
def Digest.Collides (d : Digest) (a b : Bytes) : Prop :=
  a ≠ b ∧ d.hash a = d.hash b

namespace Registration

/-- The signed data of the two registrations have the same hash, and unless that is a collision,
both their parts are the same. -/
structure SameSigned (d : Digest) (r₁ r₂ : Registration) : Prop where
  hash_eq : d.hash r₁.signedData = d.hash r₂.signedData
  parts_eq : ¬d.Collides r₁.signedData r₂.signedData →
    r₁.authenticatorBytes = r₂.authenticatorBytes ∧ r₁.clientDataHash = r₂.clientDataHash

/-- The two registrations are for the same public key. -/
def SameKey (r₁ r₂ : Registration) : Prop :=
  ∃ k₁ k₂, r₁.object.authData.credential = some k₁ ∧ r₂.object.authData.credential = some k₂ ∧
    k₁.key.value = k₂.key.value

/-- The signed data determine their parts, since hashes of client data have one length. -/
theorem signedData_inj {r₁ r₂ : Registration} :
    r₁.signedData = r₂.signedData ↔
      r₁.authenticatorBytes = r₂.authenticatorBytes ∧ r₁.clientDataHash = r₂.clientDataHash := by
  refine ⟨fun h => ?_, fun h => ?_⟩
  · refine List.append_inj' h ?_
    rw [r₁.length_clientDataHash, r₂.length_clientDataHash]
  · rcases h with ⟨hbytes, hhash⟩
    rw [signedData, hbytes, hhash]
    rfl

/-- Registrations with the same hash of the signed data sign the same, or are a collision. -/
theorem sameSigned_of_hash_eq {d : Digest} {r₁ r₂ : Registration}
    (h : d.hash r₁.signedData = d.hash r₂.signedData) : SameSigned d r₁ r₂ where
  hash_eq := h
  parts_eq hcollides :=
    signedData_inj.1 (Classical.byContradiction fun hne => hcollides ⟨hne, h⟩)

end Registration

/-! ## Acceptance for two registrations -/

section
variable {r₁ r₂ : Registration}

/-- A TPM attestation that two registrations are accepted with certifies the same data and key for
both. -/
theorem TpmStatement.Accepts.twice {policy₁ policy₂ : TpmDevicePolicy} {s : TpmStatement}
    (h₁ : s.Accepts policy₁ r₁) (h₂ : s.Accepts policy₂ r₂) :
    (∃ alg digest, Algorithm.ofId? s.alg = some alg ∧ alg.digest? = some digest ∧
      Registration.SameSigned digest r₁ r₂) ∧ Registration.SameKey r₁ r₂ := by
  obtain ⟨hcredential₁, -, halg, hdigest, hpubArea, harea₁, hkey₁, hcertInfo, hcertification₁, -⟩ :=
    h₁
  obtain ⟨hcredential₂, -, halg', hdigest', hpubArea', harea₂, hkey₂, hcertInfo',
    hcertification₂, -⟩ := h₂
  cases halg.symm.trans halg'
  cases hdigest.symm.trans hdigest'
  cases hpubArea.symm.trans hpubArea'
  cases hcertInfo.symm.trans hcertInfo'
  have hhash := hcertification₁.hash_eq hcertification₂
  have hvalue := Tpm.PublicArea.value_eq_of_describes harea₁ harea₂ hkey₁ hkey₂
  exact ⟨⟨_, _, halg, hdigest, Registration.sameSigned_of_hash_eq hhash⟩,
    _, _, hcredential₁, hcredential₂, hvalue⟩

/-- An anonymous attestation that two registrations are accepted with has one nonce and one key for
both. -/
theorem AppleStatement.Accepts.twice {s : AppleStatement} (h₁ : s.Accepts r₁) (h₂ : s.Accepts r₂) :
    Registration.SameSigned .sha256 r₁ r₂ ∧ Registration.SameKey r₁ r₂ := by
  obtain ⟨hcredential₁, hleaf₁, hnonce₁, hkey₁, hdenotes₁⟩ := h₁
  obtain ⟨hcredential₂, hleaf₂, hnonce₂, hkey₂, hdenotes₂⟩ := h₂
  obtain rfl := hleaf₁.unique hleaf₂
  cases hkey₁.symm.trans hkey₂
  have hhash := Except.ok.inj (hnonce₁.symm.trans hnonce₂)
  have hvalue := CredentialKey.value_eq_of_denotes hdenotes₁ hdenotes₂
  exact ⟨Registration.sameSigned_of_hash_eq hhash, _, _, hcredential₁, hcredential₂, hvalue⟩

/-- A response that two registrations are accepted with has one nonce for both. -/
theorem SafetyNetStatement.Accepts.twice {config₁ config₂ : Config} {now₁ now₂ : Instant}
    {s : SafetyNetStatement} {certs₁ certs₂ : List Bytes} (h₁ : s.Accepts config₁ now₁ r₁ certs₁)
    (h₂ : s.Accepts config₂ now₂ r₂ certs₂) : Registration.SameSigned .sha256 r₁ r₂ := by
  obtain ⟨-, -, -, hlayout₁, hheader₁, -, -, -, -, -, hresponse₁, hfits₁⟩ := h₁
  obtain ⟨-, -, -, hlayout₂, hheader₂, -, -, -, -, -, hresponse₂, hfits₂⟩ := h₂
  have htoken₁ := SafetyNet.Token.parse_eq_ok_iff.2 ⟨hlayout₁, hheader₁⟩
  have htoken₂ := SafetyNet.Token.parse_eq_ok_iff.2 ⟨hlayout₂, hheader₂⟩
  cases htoken₁.symm.trans htoken₂
  have hresponse₁ := SafetyNet.Response.ofPayload_eq_ok.2 hresponse₁
  have hresponse₂ := SafetyNet.Response.ofPayload_eq_ok.2 hresponse₂
  cases hresponse₁.symm.trans hresponse₂
  have hhash := hfits₁.nonce.unique hfits₂.nonce
  exact Registration.sameSigned_of_hash_eq hhash

/-- A described key that two registrations are accepted with has one challenge and one key for
both. -/
theorem AndroidKeyStatement.Accepts.twice {teeOnly₁ teeOnly₂ : Bool} {s : AndroidKeyStatement}
    (h₁ : s.Accepts teeOnly₁ r₁) (h₂ : s.Accepts teeOnly₂ r₂) :
    r₁.clientDataHash = r₂.clientDataHash ∧ Registration.SameKey r₁ r₂ := by
  obtain ⟨hcredential₁, hleaf₁, hkey₁, -, -, hdenotes₁, hdescription₁, hfits₁⟩ := h₁
  obtain ⟨hcredential₂, hleaf₂, hkey₂, -, -, hdenotes₂, hdescription₂, hfits₂⟩ := h₂
  obtain rfl := hleaf₁.unique hleaf₂
  cases hkey₁.symm.trans hkey₂
  cases hdescription₁.symm.trans hdescription₂
  have hchallenge := hfits₁.challenge.symm.trans hfits₂.challenge
  have hvalue := CredentialKey.value_eq_of_denotes hdenotes₁ hdenotes₂
  exact ⟨hchallenge, _, _, hcredential₁, hcredential₂, hvalue⟩

/-- A statement that is accepted for two registrations, each by the validator of its format, is for
the same signed data, up to the hash that the format takes of them, or at least for the same client
data, and where the format certifies the credential key, it is for the same key. -/
theorem accepted_twice {config₁ config₂ : Config} {now₁ now₂ : Instant} {v₁ v₂ : Verdict}
    (hstatement : r₁.statement = r₂.statement)
    (h₁ : (Validator.builtIn config₁ now₁ r₁.statement.format).validate r₁ = .ok v₁)
    (h₂ : (Validator.builtIn config₂ now₂ r₂.statement.format).validate r₂ = .ok v₂) :
    (∀ s, r₁.statement = .tpm s → (∃ alg digest, Algorithm.ofId? s.alg = some alg ∧
      alg.digest? = some digest ∧ Registration.SameSigned digest r₁ r₂) ∧
      Registration.SameKey r₁ r₂) ∧
    (∀ s, r₁.statement = .apple s →
      Registration.SameSigned .sha256 r₁ r₂ ∧ Registration.SameKey r₁ r₂) ∧
    (∀ s, r₁.statement = .androidSafetyNet s → Registration.SameSigned .sha256 r₁ r₂) ∧
    (∀ s, r₁.statement = .androidKey s →
      r₁.clientDataHash = r₂.clientDataHash ∧ Registration.SameKey r₁ r₂) := by
  rw [Validator.builtIn_of_format rfl, Format.verify_own] at h₁ h₂
  rw [← hstatement] at h₂
  refine ⟨fun s hs => ?_, fun s hs => ?_, fun s hs => ?_, fun s hs => ?_⟩
  · rw [hs] at h₁ h₂
    exact (TpmStatement.verify_eq_ok.1 h₁).1.twice (TpmStatement.verify_eq_ok.1 h₂).1
  · rw [hs] at h₁ h₂
    exact (AppleStatement.verify_eq_ok.1 h₁).1.twice (AppleStatement.verify_eq_ok.1 h₂).1
  · rw [hs] at h₁ h₂
    obtain ⟨_, haccepts₁, -⟩ := SafetyNetStatement.verify_eq_ok.1 h₁
    obtain ⟨_, haccepts₂, -⟩ := SafetyNetStatement.verify_eq_ok.1 h₂
    exact haccepts₁.twice haccepts₂
  · rw [hs] at h₁ h₂
    exact (AndroidKeyStatement.verify_eq_ok.1 h₁).1.twice (AndroidKeyStatement.verify_eq_ok.1 h₂).1

end

/-- The sample of an anonymous attestation, verified at two times and under two configurations. -/
theorem accepted_twice_sample :
    AppleSample.registration.statement = .apple AppleSample.statement ∧
      (∀ config now, (Validator.builtIn config now .apple).validate AppleSample.registration =
        .ok ⟨.anonCa, some AppleSample.statement.certificates⟩) ∧
      Registration.SameSigned .sha256 AppleSample.registration AppleSample.registration ∧
      Registration.SameKey AppleSample.registration AppleSample.registration := by
  have haccepted (config : Config) (now : Instant) :
      (Validator.builtIn config now .apple).validate AppleSample.registration =
        .ok ⟨.anonCa, some AppleSample.statement.certificates⟩ := by
    have hformat : AppleSample.registration.statement.format = .apple := rfl
    rw [Validator.builtIn_of_format hformat]
    exact AppleSample.verify_eq_ok
  have hbound := accepted_twice rfl (haccepted {} ⟨0⟩) (haccepted { teeOnly := true } ⟨1⟩)
  exact ⟨rfl, haccepted, hbound.2.1 _ rfl⟩

end Attestation
