import Attestation.Proofs.Certificate.Extension
import Attestation.Proofs.Registration
import Attestation.Proofs.Validator
import Attestation.Verification.FidoU2f

/-!
# What the verification of a security key's attestation accepts

`FidoU2fStatement.Accepts` is all the conditions on a statement and the registration with it, and a
statement is accepted exactly if they hold (`FidoU2fStatement.verify_eq_ok`). The conditions on the
credential key are those under which its point has a place in the message that is signed. They come
before the signature, like all others: `FidoU2fStatement.Reaches` says that they hold, and which key
and which message the signature is then checked with.
-/

namespace Attestation.FidoU2fStatement

/-- The key of the one certificate is on P-256 and has signed the message of the registration, whose
credential key is a point on P-256 with coordinates of 32 bytes. -/
inductive Accepts (s : FidoU2fStatement) (r : Registration) : Prop
  | intro {credential : AttestedCredential} {leaf : Certificate} {keyX keyY x y : Bytes}
      {alg : Option Int} :
    s.certificates.length = 1 → BeginsWith s.certificates leaf →
    leaf.publicKey = .ok (.ec .p256 keyX keyY) → r.object.authData.credential = some credential →
    credential.key = .ec2 alg .p256 x y → x.length = 32 → y.length = 32 →
    Algorithm.es256.verify (.ec .p256 keyX keyY)
      (message r.object.authData.rpIdHash r.clientDataHash credential.id x y) s.signature = .ok () →
    Accepts s r

/-- The key of the certificate has to be one on P-256. -/
theorem checkKey_eq_ok {key : PublicKey} {u : Unit} :
    checkKey key = .ok u ↔ ∃ x y, key = .ec .p256 x y := by
  unfold checkKey
  split
  · simp
  · rename_i key hother
    refine ⟨nofun, fun h => ?_⟩
    rcases h with ⟨x, y, rfl⟩
    exact absurd rfl (hother x y)

/-- The credential key has to be one on P-256, with coordinates of 32 bytes. -/
theorem coordinates_eq_ok {key : CredentialKey} {x y : Bytes} :
    coordinates key = .ok (x, y) ↔
      ∃ alg, key = .ec2 alg .p256 x y ∧ x.length = 32 ∧ y.length = 32 := by
  unfold coordinates
  split
  · rename_i alg x' y'
    split
    · rename_i hlength
      refine ⟨fun h => ?_, fun h => ?_⟩
      · cases h
        exact ⟨alg, rfl, hlength⟩
      · rcases h with ⟨_, ⟨⟩, -⟩
        rfl
    · rename_i hlength
      refine ⟨nofun, fun h => ?_⟩
      rcases h with ⟨_, ⟨⟩, h⟩
      exact absurd h hlength
  · rename_i hother
    refine ⟨nofun, fun h => ?_⟩
    rcases h with ⟨alg, rfl, -⟩
    exact absurd rfl (hother alg x y)

/-- What the message of a registration binds. -/
structure Bound where
  rpIdHash : Bytes
  clientDataHash : Bytes
  credentialId : Bytes
  x : Bytes
  y : Bytes
  deriving DecidableEq, Repr

/-- The message of what it binds. -/
def Bound.message (b : Bound) : Bytes :=
  FidoU2fStatement.message b.rpIdHash b.clientDataHash b.credentialId b.x b.y

/-- All that is checked before the signature is in order, which is then checked with the key of the
certificate and the message of what the registration binds. -/
inductive Reaches (s : FidoU2fStatement) (r : Registration) : PublicKey → Bound → Prop
  | intro {credential : AttestedCredential} {leaf : Certificate} {keyX keyY x y : Bytes}
      {alg : Option Int} :
    s.certificates.length = 1 → BeginsWith s.certificates leaf →
    leaf.publicKey = .ok (.ec .p256 keyX keyY) → r.object.authData.credential = some credential →
    credential.key = .ec2 alg .p256 x y → x.length = 32 → y.length = 32 →
    Reaches s r (.ec .p256 keyX keyY)
      ⟨r.object.authData.rpIdHash, r.clientDataHash, credential.id, x, y⟩

/-- The checks before the one of the signature, and what that one is made with. -/
def beforeSignature (s : FidoU2fStatement) (r : Registration) : Result (PublicKey × Bound) := do
  Certificate.require (s.certificates.length == 1) (.certificateCount s.certificates.length)
  let leaf ← leafCertificate s.certificates
  let key ← leaf.publicKey
  checkKey key
  let credential ← r.credential
  let (x, y) ← coordinates credential.key
  return (key, ⟨r.object.authData.rpIdHash, r.clientDataHash, credential.id, x, y⟩)

/-- The signature is checked last. -/
theorem verify_eq (s : FidoU2fStatement) (r : Registration) :
    s.verify r = do
      let (key, bound) ← s.beforeSignature r
      Algorithm.es256.verify key bound.message s.signature
      return ⟨.basic, some s.certificates⟩ := by
  simp only [beforeSignature, bind_assoc, pure_bind]
  rfl

/-- The signature is verified exactly if everything before is in order. -/
theorem beforeSignature_eq_ok {s : FidoU2fStatement} {r : Registration} {key : PublicKey}
    {bound : Bound} : s.beforeSignature r = .ok (key, bound) ↔ s.Reaches r key bound := by
  refine ⟨fun h => ?_, fun h => ?_⟩
  · obtain ⟨_, hcount, h₁⟩ := bind_eq_ok.1 h
    obtain ⟨leaf, hleaf, h₂⟩ := bind_eq_ok.1 h₁
    obtain ⟨key', hkey, h₃⟩ := bind_eq_ok.1 h₂
    obtain ⟨_, hcurve, h₄⟩ := bind_eq_ok.1 h₃
    obtain ⟨credential, hcredential, h₅⟩ := bind_eq_ok.1 h₄
    obtain ⟨⟨x, y⟩, hpoint, hparts⟩ := bind_eq_ok.1 h₅
    obtain ⟨keyX, keyY, rfl⟩ := checkKey_eq_ok.1 hcurve
    obtain ⟨alg, hcredentialKey, hx, hy⟩ := coordinates_eq_ok.1 hpoint
    have hcount : s.certificates.length = 1 := by simpa using hcount
    have hleaf := Certificate.leafCertificate_eq_ok.1 hleaf
    have hcredential := Registration.credential_eq_ok.1 hcredential
    cases pure_eq_ok.1 hparts
    exact .intro hcount hleaf hkey hcredential hcredentialKey hx hy
  · obtain ⟨hcount, hleaf, hkey, hcredential, hcredentialKey, hx, hy⟩ := h
    refine bind_eq_ok.2 ⟨(), by simpa using hcount, ?_⟩
    refine bind_eq_ok.2 ⟨_, Certificate.leafCertificate_eq_ok.2 hleaf, ?_⟩
    refine bind_eq_ok.2 ⟨_, hkey, bind_eq_ok.2 ⟨(), checkKey_eq_ok.2 ⟨_, _, rfl⟩, ?_⟩⟩
    refine bind_eq_ok.2 ⟨_, Registration.credential_eq_ok.2 hcredential, ?_⟩
    exact bind_eq_ok.2 ⟨_, coordinates_eq_ok.2 ⟨_, hcredentialKey, hx, hy⟩, rfl⟩

/-- Once the signature is reached, it alone decides. -/
theorem Reaches.verify_eq {s : FidoU2fStatement} {r : Registration} {key : PublicKey}
    {bound : Bound} (h : s.Reaches r key bound) :
    s.verify r = do
      Algorithm.es256.verify key bound.message s.signature
      return ⟨.basic, some s.certificates⟩ := by
  rw [FidoU2fStatement.verify_eq, beforeSignature_eq_ok.2 h]
  rfl

/-- A registration is accepted if the signature is reached and is one of its message. -/
theorem accepts_iff {s : FidoU2fStatement} {r : Registration} :
    s.Accepts r ↔ ∃ key bound, s.Reaches r key bound ∧
      Algorithm.es256.verify key bound.message s.signature = .ok () := by
  refine ⟨fun h => ?_, fun h => ?_⟩
  · obtain ⟨hcount, hleaf, hkey, hcredential, hcredentialKey, hx, hy, hsignature⟩ := h
    exact ⟨_, _, .intro hcount hleaf hkey hcredential hcredentialKey hx hy, hsignature⟩
  · obtain ⟨_, _, ⟨hcount, hleaf, hkey, hcredential, hcredentialKey, hx, hy⟩, hsignature⟩ := h
    exact .intro hcount hleaf hkey hcredential hcredentialKey hx hy hsignature

/-- A statement of a security key is accepted exactly if all conditions hold. -/
theorem verify_eq_ok {s : FidoU2fStatement} {r : Registration} {v : Verdict} :
    s.verify r = .ok v ↔ s.Accepts r ∧ v = ⟨.basic, some s.certificates⟩ := by
  rw [verify_eq, accepts_iff]
  refine ⟨fun h => ?_, fun h => ?_⟩
  · obtain ⟨⟨key, bound⟩, hreaches, h₁⟩ := bind_eq_ok.1 h
    obtain ⟨_, hsignature, hverdict⟩ := bind_eq_ok.1 h₁
    exact ⟨⟨key, bound, beforeSignature_eq_ok.1 hreaches, hsignature⟩,
      (pure_eq_ok.1 hverdict).symm⟩
  · obtain ⟨⟨key, bound, hreaches, hsignature⟩, rfl⟩ := h
    refine bind_eq_ok.2 ⟨_, beforeSignature_eq_ok.2 hreaches, ?_⟩
    exact bind_eq_ok.2 ⟨(), hsignature, rfl⟩

/-- The validator of security keys accepts the registrations with such a statement that fits. -/
theorem validate_eq_ok {config : Config} {now : Instant} {r : Registration} {v : Verdict} :
    (Validator.builtIn config now .fidoU2f).validate r = .ok v ↔
      ∃ s, r.statement = .fidoU2f s ∧ s.Accepts r ∧ v = ⟨.basic, some s.certificates⟩ := by
  have hformat (statement : Statement) :
      statement.format = .fidoU2f ↔ ∃ s, statement = .fidoU2f s := by
    cases statement <;> simp [Statement.format]
  rw [Validator.builtIn_eq_ok_iff .fidoU2f (fun s => s.verify r) hformat
    fun s hs => by simp [Format.verify, hs]]
  exact exists_congr fun s => and_congr_right fun _ => verify_eq_ok

end Attestation.FidoU2fStatement
