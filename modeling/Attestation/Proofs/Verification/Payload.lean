import Attestation.Proofs.Verification.Binding
import Attestation.Proofs.Verification.Curve
import Attestation.Proofs.Verification.Packed

/-!
# What signatures are made of

The messages that signatures are checked with are parts put one after the other, with no mark
between them. They tell their parts all the same, because all parts but one have a fixed length: the
hash of client data in the signed data, and everything but the identifier of the credential in the
message of a security key, where the check of the coordinates is needed for it
(`FidoU2fStatement.Bound.message_inj`). So a signature that is good for one message only does not
get another registration accepted (`signed_messages_unique`).
-/

namespace Attestation

/-! ## Parts of the messages -/

/-- The bytes of authenticator data begin with the hash of the relying party's identifier. -/
theorem Registration.length_rpIdHash (r : Registration) :
    r.object.authData.rpIdHash.length = 32 := by
  obtain ⟨hlength, -⟩ := List.getElem?_eq_some_iff.1 r.toldBy.flags
  rw [r.toldBy.rpIdHash, List.length_take, Nat.min_eq_left (Nat.le_of_lt hlength)]

namespace FidoU2fStatement

/-- All parts but the identifier of the credential have 32 bytes. -/
structure Bound.Sized (b : Bound) : Prop where
  rpIdHash : b.rpIdHash.length = 32
  clientDataHash : b.clientDataHash.length = 32
  x : b.x.length = 32
  y : b.y.length = 32

/-- The parts of a message that is verified have the lengths that set them apart. -/
theorem Reaches.sized {s : FidoU2fStatement} {r : Registration} {key : PublicKey} {b : Bound}
    (h : s.Reaches r key b) : b.Sized := by
  obtain ⟨-, -, -, -, -, hx, hy⟩ := h
  exact ⟨r.length_rpIdHash, r.length_clientDataHash, hx, hy⟩

/-- The message tells its parts: the two hashes have their place from its beginning, the point has
its place from its end, and the identifier is what is left between them. -/
theorem Bound.message_inj {b₁ b₂ : Bound} (h₁ : b₁.Sized) (h₂ : b₂.Sized) :
    b₁.message = b₂.message ↔ b₁ = b₂ := by
  refine ⟨fun h => ?_, fun h => h ▸ rfl⟩
  have hbody := (List.cons.inj h).2
  obtain ⟨hfront, hpoint⟩ := List.append_inj' hbody (by simp [h₁.x, h₁.y, h₂.x, h₂.y])
  obtain ⟨hx, hy⟩ := List.append_inj (List.cons.inj hpoint).2 (h₁.x.trans h₂.x.symm)
  obtain ⟨hhashes, hid⟩ := List.append_inj hfront
    (by simp [h₁.rpIdHash, h₁.clientDataHash, h₂.rpIdHash, h₂.clientDataHash])
  obtain ⟨hrpIdHash, hclientDataHash⟩ :=
    List.append_inj hhashes (h₁.rpIdHash.trans h₂.rpIdHash.symm)
  cases b₁
  cases b₂
  simp_all

end FidoU2fStatement

/-! ## Signatures of the messages -/

/-- Under the key the signature is good for no message but the given one. -/
def Algorithm.SignsOnly (alg : Algorithm) (key : PublicKey) (message sig : Bytes) : Prop :=
  ∀ m, alg.verify key m sig = .ok () → m = message

/-- The signature is the one that the statement has for the signed data, to be checked with the
algorithm and the key: in a packed statement it is one of the first certificate's key or, without
certificates, of the credential key, and in the statement of an Android key it is one of the first
certificate's key. -/
inductive Registration.SignedWith (r : Registration) : Algorithm → PublicKey → Bytes → Prop
  | packed {s : PackedStatement} {certs : List Bytes} {leaf : Certificate} {key : PublicKey}
      {alg : Algorithm} :
    r.statement = .packed s → s.certificates = some certs → BeginsWith certs leaf →
    leaf.publicKey = .ok key → Algorithm.ofId? s.alg = some alg → SignedWith r alg key s.signature
  | packedSelf {s : PackedStatement} {credential : AttestedCredential} {alg : Algorithm} :
    r.statement = .packed s → s.certificates = none →
    r.object.authData.credential = some credential → Algorithm.ofId? s.alg = some alg →
    SignedWith r alg (.ofCredential credential.key) s.signature
  | androidKey {s : AndroidKeyStatement} {leaf : Certificate} {key : PublicKey} {alg : Algorithm} :
    r.statement = .androidKey s → BeginsWith s.certificates leaf → leaf.publicKey = .ok key →
    Algorithm.ofId? s.alg = some alg → SignedWith r alg key s.signature

section
variable {config : Config} {now : Instant} {r : Registration} {v : Verdict}

/-- In a registration that is accepted, the signature is one of the signed data. -/
theorem Registration.SignedWith.verify {alg : Algorithm} {key : PublicKey} {sig : Bytes}
    (h : r.SignedWith alg key sig)
    (hv : (Validator.builtIn config now r.statement.format).validate r = .ok v) :
    alg.verify key r.signedData sig = .ok () := by
  rw [Validator.builtIn_of_format rfl, Format.verify_own] at hv
  cases h with
  | packed hs hcerts hleaf hkey halg =>
    rw [hs] at hv
    cases PackedStatement.verify_eq_ok.1 hv with
    | certified _ halg' hcerts' _ hleaf' hkey' hsignature =>
      cases hcerts.symm.trans hcerts'
      cases hleaf.unique hleaf'
      cases hkey.symm.trans hkey'
      cases halg.symm.trans halg'
      exact hsignature
    | self _ _ hcerts' => cases hcerts.symm.trans hcerts'
  | packedSelf hs hcerts hcredential halg =>
    rw [hs] at hv
    cases PackedStatement.verify_eq_ok.1 hv with
    | certified _ _ hcerts' => cases hcerts.symm.trans hcerts'
    | self hcredential' halg' _ _ _ hsignature =>
      cases hcredential.symm.trans hcredential'
      cases halg.symm.trans halg'
      exact hsignature
  | androidKey hs hleaf hkey halg =>
    rw [hs] at hv
    obtain ⟨⟨-, hleaf', hkey', halg', hsignature, -⟩, -⟩ := AndroidKeyStatement.verify_eq_ok.1 hv
    cases hleaf.unique hleaf'
    cases hkey.symm.trans hkey'
    cases halg.symm.trans halg'
    exact hsignature

/-- In a registration of a security key that is accepted, the signature is one of the message. -/
theorem FidoU2fStatement.Reaches.verify {s : FidoU2fStatement} {key : PublicKey} {b : Bound}
    (h : s.Reaches r key b) (hs : r.statement = .fidoU2f s)
    (hv : (Validator.builtIn config now r.statement.format).validate r = .ok v) :
    Algorithm.es256.verify key b.message s.signature = .ok () := by
  rw [Validator.builtIn_of_format rfl, Format.verify_own, hs] at hv
  obtain ⟨_, hsignature, -⟩ := bind_eq_ok.1 (h.verify_eq.symm.trans hv)
  exact hsignature

end

/-- The signed data of two registrations are the same only if both their parts are. The messages
that the signatures of two security keys are checked with, which decide once all else is in order,
are the same only if all that they bind is. So a signature that is good for nothing but the signed
data or the message of one registration is refused in every registration where they have other
parts. -/
theorem signed_messages_unique (r₁ r₂ : Registration) :
    (r₁.signedData = r₂.signedData ↔
      r₁.authenticatorBytes = r₂.authenticatorBytes ∧ r₁.clientDataHash = r₂.clientDataHash) ∧
    (∀ alg key sig, r₂.SignedWith alg key sig → alg.SignsOnly key r₁.signedData sig →
      ¬(r₁.authenticatorBytes = r₂.authenticatorBytes ∧ r₁.clientDataHash = r₂.clientDataHash) →
      ∀ config now v,
        (Validator.builtIn config now r₂.statement.format).validate r₂ ≠ .ok v) ∧
    ∀ s₁ s₂ key₁ key₂ b₁ b₂, r₁.statement = .fidoU2f s₁ → s₁.Reaches r₁ key₁ b₁ →
      r₂.statement = .fidoU2f s₂ → s₂.Reaches r₂ key₂ b₂ →
      (s₂.verify r₂ = do
        Algorithm.es256.verify key₂ b₂.message s₂.signature
        return ⟨.basic, some s₂.certificates⟩) ∧
      (b₁.message = b₂.message ↔ b₁ = b₂) ∧
      (Algorithm.es256.SignsOnly key₂ b₁.message s₂.signature → b₁ ≠ b₂ →
        ∀ config now v,
          (Validator.builtIn config now r₂.statement.format).validate r₂ ≠ .ok v) := by
  refine ⟨Registration.signedData_inj, fun alg key sig hsigned honly hne config now v hv => ?_,
    fun s₁ s₂ key₁ key₂ b₁ b₂ _ h₁ hs₂ h₂ => ?_⟩
  · exact hne (Registration.signedData_inj.1 (honly _ (hsigned.verify hv)).symm)
  · have hinj := FidoU2fStatement.Bound.message_inj h₁.sized h₂.sized
    refine ⟨h₂.verify_eq, hinj, fun honly hne config now v hv => ?_⟩
    exact hne (hinj.1 (honly _ (h₂.verify hs₂ hv)).symm)

namespace SecurityKeySample

/-- The coordinates of the credential key. -/
def x : Bytes :=
  List.replicate 32 1

def y : Bytes :=
  List.replicate 32 2

/-- The credential key as an item. -/
def keyBytes : Bytes :=
  [0xa5, 0x01, 0x02, 0x03, 0x26, 0x20, 0x01, 0x21, 0x58, 0x20] ++ x ++ [0x22, 0x58, 0x20] ++ y

/-- The longest identifier that authenticator data have room for. -/
def longestId : Bytes :=
  List.replicate 65535 4

/-- Authenticator data with a credential of the given identifier. -/
def authenticatorBytes (id : Bytes) : Bytes :=
  List.replicate 32 0 ++ [0x41] ++ Bytes.ofNat 4 (0 : UInt32).toNat ++
    (List.replicate 16 0 ++ Bytes.ofNat 2 id.length ++ id ++ keyBytes) ++ []

/-- What the authenticator data say. -/
def authData (id : Bytes) : AuthenticatorData :=
  ⟨List.replicate 32 0, 0x41, 0, some ⟨List.replicate 16 0, id, .ec2 (some (-7)) .p256 x y⟩, none⟩

/-- A statement with a certificate of a key on P-256 and without a signature. -/
def statement : FidoU2fStatement :=
  ⟨[], [CurveSample.certificate (Curve.objectId .p256)]⟩

/-- The bytes say what they should. -/
theorem parse_authenticatorBytes {id : Bytes} (h : id.length ≤ 65535) :
    AuthenticatorData.parse (authenticatorBytes id) = .ok (authData id) := by
  obtain ⟨item, hitem, hkey⟩ : ∃ item, Cbor.Value.IsItem keyBytes item ∧
      CredentialKey.ofCbor item = .ok (.ec2 (some (-7)) .p256 x y) := ⟨_, rfl, rfl⟩
  have haaguid : (List.replicate 16 (0 : UInt8)).length = 16 := List.length_replicate
  have hcredential := AuthenticatorData.CredentialEncoding.intro haaguid h hitem hkey
  refine AuthenticatorData.parse_of_encoding (.intro List.length_replicate ?_ .absent)
  exact .present hcredential

/-- There are no extensions that could differ. -/
theorem same_authData (id : Bytes) : (authData id).same (authData id) = true := by
  simp [authData, AuthenticatorData.same, AuthenticatorData.sameExtensions]

/-- The registration of a credential with the given identifier. -/
def registration (id : Bytes) (h : id.length ≤ 65535) : Registration :=
  ⟨⟨authData id, .fidoU2f statement⟩, authenticatorBytes id, List.replicate 32 0, rfl, authData id,
    parse_authenticatorBytes h, same_authData id⟩

/-- What the message of the registration binds. -/
def bound (id : Bytes) : FidoU2fStatement.Bound :=
  ⟨List.replicate 32 0, List.replicate 32 0, id, x, y⟩

/-- The signature of the sample is verified under the key of the certificate. -/
theorem reaches {id : Bytes} (h : id.length ≤ 65535) :
    statement.Reaches (registration id h) (.ec .p256 CurveSample.x CurveSample.y) (bound id) := by
  have hparse : Certificate.parse (CurveSample.certificate (Curve.objectId .p256)) =
      .ok (CurveSample.parsed (Curve.objectId .p256)) := by decide +kernel
  have hkey : (CurveSample.parsed (Curve.objectId .p256)).publicKey =
      .ok (.ec .p256 CurveSample.x CurveSample.y) := by decide +kernel
  have hleaf : BeginsWith statement.certificates (CurveSample.parsed (Curve.objectId .p256)) :=
    ⟨_, _, rfl, Certificate.parse_eq_ok.1 hparse⟩
  have hcredential : (registration id h).object.authData.credential =
      some ⟨List.replicate 16 0, id, .ec2 (some (-7)) .p256 x y⟩ := rfl
  have hx : x.length = 32 := List.length_replicate
  have hy : y.length = 32 := List.length_replicate
  exact .intro rfl hleaf hkey hcredential rfl hx hy

end SecurityKeySample

open SecurityKeySample (longestId authenticatorBytes registration bound)

/-- Two registrations that differ in the identifier of the credential, the empty one and one of the
greatest length. -/
theorem signed_messages_unique_sample :
    ∃ r₁ r₂ key, SecurityKeySample.statement.Reaches r₁ key (bound []) ∧
      SecurityKeySample.statement.Reaches r₂ key (bound longestId) ∧
      r₁.signedData ≠ r₂.signedData ∧ (bound []).message ≠ (bound longestId).message := by
  have hlongest : longestId.length = 65535 := List.length_replicate
  have hempty : ([] : Bytes).length ≤ 65535 := Nat.zero_le _
  have h₁ := SecurityKeySample.reaches hempty
  have h₂ := SecurityKeySample.reaches (Nat.le_of_eq hlongest)
  obtain ⟨hdata, -, hmessages⟩ :=
    signed_messages_unique (registration [] hempty) (registration longestId (Nat.le_of_eq hlongest))
  obtain ⟨-, hmessage, -⟩ := hmessages _ _ _ _ _ _ rfl h₁ rfl h₂
  refine ⟨_, _, _, h₁, h₂, fun h => ?_, fun h => ?_⟩
  · have hbytes : authenticatorBytes [] = authenticatorBytes longestId := (hdata.1 h).1
    have hlength := congrArg List.length hbytes
    simp only [authenticatorBytes, List.length_append, hlongest, Bytes.length_ofNat,
      List.length_nil] at hlength
    omega
  · have hid : [] = longestId := congrArg FidoU2fStatement.Bound.credentialId (hmessage.1 h)
    rw [← hid] at hlongest
    cases hlongest

end Attestation
