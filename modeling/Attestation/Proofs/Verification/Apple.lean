import Attestation.Proofs.Certificate.Extension
import Attestation.Proofs.KeyValue
import Attestation.Proofs.Registration
import Attestation.Proofs.Validator
import Attestation.Verification.Apple

/-!
# What the verification of an anonymous attestation accepts

`AppleStatement.Accepts` is all the conditions on a statement and the registration with it, and a
statement is accepted exactly if they hold (`AppleStatement.verify_eq_ok`). `AppleSample` is a
registration for which they do.
-/

namespace Attestation

namespace AppleStatement

/-- The first certificate has the hash of the signed data as its nonce, and its key is the
credential key. -/
inductive Accepts (s : AppleStatement) (r : Registration) : Prop
  | intro {credential : AttestedCredential} {leaf : Certificate} {key : PublicKey} :
    r.object.authData.credential = some credential → BeginsWith s.certificates leaf →
    leaf.appleNonce = .ok (Digest.sha256.hash r.signedData) → leaf.publicKey = .ok key →
    credential.key.Denotes key → Accepts s r

/-- An anonymous attestation is accepted exactly if all conditions hold. -/
theorem verify_eq_ok {s : AppleStatement} {r : Registration} {v : Verdict} :
    s.verify r = .ok v ↔ s.Accepts r ∧ v = ⟨.anonCa, some s.certificates⟩ := by
  refine ⟨fun h => ?_, fun h => ?_⟩
  · obtain ⟨credential, hcredential, h₁⟩ := bind_eq_ok.1 h
    obtain ⟨leaf, hleaf, h₂⟩ := bind_eq_ok.1 h₁
    obtain ⟨nonce, hnonce, h₃⟩ := bind_eq_ok.1 h₂
    obtain ⟨_, hhash, h₄⟩ := bind_eq_ok.1 h₃
    obtain ⟨key, hkey, h₅⟩ := bind_eq_ok.1 h₄
    obtain ⟨denoted, hdenotes, h₆⟩ := bind_eq_ok.1 h₅
    obtain ⟨_, hdenoted, hverdict⟩ := bind_eq_ok.1 h₆
    obtain rfl : nonce = Digest.sha256.hash r.signedData := by simpa using hhash
    obtain rfl := ensure_eq_ok.1 hdenoted
    have hcredential := Registration.credential_eq_ok.1 hcredential
    have hleaf := Certificate.leafCertificate_eq_ok.1 hleaf
    have hdenotes := CredentialKey.denotes_eq_true_iff.1 hdenotes
    exact ⟨.intro hcredential hleaf hnonce hkey hdenotes, (pure_eq_ok.1 hverdict).symm⟩
  · rcases h with ⟨⟨hcredential, hleaf, hnonce, hkey, hdenotes⟩, rfl⟩
    refine bind_eq_ok.2 ⟨_, Registration.credential_eq_ok.2 hcredential, ?_⟩
    refine bind_eq_ok.2 ⟨_, Certificate.leafCertificate_eq_ok.2 hleaf, ?_⟩
    refine bind_eq_ok.2 ⟨_, hnonce, bind_eq_ok.2 ⟨(), by simp, ?_⟩⟩
    refine bind_eq_ok.2 ⟨_, hkey, ?_⟩
    refine bind_eq_ok.2 ⟨true, CredentialKey.denotes_eq_true_iff.2 hdenotes, ?_⟩
    exact bind_eq_ok.2 ⟨(), rfl, rfl⟩

/-- The validator of anonymous attestations accepts the registrations with such a statement that
fits. -/
theorem validate_eq_ok {config : Config} {now : Instant} {r : Registration} {v : Verdict} :
    (Validator.builtIn config now .apple).validate r = .ok v ↔
      ∃ s, r.statement = .apple s ∧ s.Accepts r ∧ v = ⟨.anonCa, some s.certificates⟩ := by
  have hformat (statement : Statement) :
      statement.format = .apple ↔ ∃ s, statement = .apple s := by
    cases statement <;> simp [Statement.format]
  rw [Validator.builtIn_eq_ok_iff .apple (fun s => s.verify r) hformat
    fun s hs => by simp [Format.verify, hs]]
  exact exists_congr fun s => and_congr_right fun _ => verify_eq_ok

end AppleStatement

/-! ## A sample -/

namespace AppleSample

/-- An element with the given tag, whose content is shorter than 256 bytes. -/
def element (tag : UInt8) (content : Bytes) : Bytes :=
  let length := UInt8.ofNat content.length
  tag :: ((if length < 0x80 then [length] else [0x81, length]) ++ content)

/-- A key for Ed25519. -/
def key : Bytes :=
  List.replicate 32 7

/-- Authenticator data with the key as credential key. -/
def authenticatorBytes : Bytes :=
  List.replicate 32 0 ++ [0x41, 0, 0, 0, 0] ++ List.replicate 16 0 ++ [0, 1, 9] ++
    [0xa3, 0x01, 0x01, 0x20, 0x06, 0x21, 0x58, 0x20] ++ key

/-- The hash of client data. -/
def clientDataHash : Bytes :=
  List.replicate 32 0

/-- A certificate of the key, with the hash of the signed data as nonce. -/
def certificate : Bytes :=
  let algorithm := element 0x30 (element 0x06 Certificate.ed25519Id)
  let time := element 0x17 (Bytes.ofText "250101000000Z")
  let nonce := Digest.sha256.hash (authenticatorBytes ++ clientDataHash)
  let nonceExtension := element 0x30 (element 0x06 Certificate.appleNonceId ++
    element 0x04 (element 0x30 (element 0xa1 (element 0x04 nonce))))
  element 0x30 (element 0x30 (element 0xa0 [0x02, 0x01, 0x02] ++ [0x02, 0x01, 0x01] ++ algorithm ++
      element 0x30 [] ++ element 0x30 (time ++ time) ++ element 0x30 [] ++
      element 0x30 (algorithm ++ element 0x03 (0 :: key)) ++
      element 0xa3 (element 0x30 nonceExtension)) ++
    algorithm ++ element 0x03 [0])

/-- What the authenticator data say. -/
def authData : AuthenticatorData :=
  ⟨List.replicate 32 0, 0x41, 0, some ⟨List.replicate 16 0, [9], .okp none key⟩, none⟩

/-- An anonymous attestation of the key. -/
def statement : AppleStatement :=
  ⟨[certificate]⟩

/-- A registration with the attestation. -/
def registration : Registration :=
  ⟨⟨authData, .apple statement⟩, authenticatorBytes, clientDataHash, rfl, authData, rfl, rfl⟩

/-- The attestation is accepted. -/
theorem verify_eq_ok :
    statement.verify registration = .ok ⟨.anonCa, some statement.certificates⟩ := by
  decide +kernel

end AppleSample

end Attestation
