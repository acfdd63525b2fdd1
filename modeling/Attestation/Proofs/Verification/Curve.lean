import Attestation.Proofs.Certificate.Key
import Attestation.Proofs.Verification.Apple
import Attestation.Proofs.Verification.FidoU2f

/-!
# Curves of attested keys

Where the verifications ask for the curve of a certificate's key, they get the one that the length
of the coordinates tells. The attestation of a security key is accepted only with a point of the
length of P-256, and a credential key equals only the key of a certificate whose point has the
length of the credential's curve. What the certificate itself says of the curve is settled by this
only if it is the certificate's own curve that decides its key (`Certificate.curve_told_by_length`).
-/

namespace Attestation

/-- The key of the first certificate is taken for one on P-256. -/
theorem FidoU2fStatement.Accepts.publicKey {s : FidoU2fStatement} {r : Registration}
    {c : Certificate} (h : s.Accepts r) (hc : BeginsWith s.certificates c) :
    ∃ x y, c.publicKey = .ok (.ec .p256 x y) := by
  obtain ⟨-, hleaf, hkey, -⟩ := h
  obtain rfl := hc.unique hleaf
  exact ⟨_, _, hkey⟩

/-- A credential key on a curve denotes keys on that curve only. -/
theorem CredentialKey.eq_ec_of_denotes {alg : Option Int} {curve : Curve} {x y : Bytes}
    {key : PublicKey} (h : (ec2 alg curve x y).denotes key = .ok true) :
    ∃ x' y', key = .ec curve x' y' := by
  cases key with
  | rsa _ _ | ed25519 _ => cases h
  | ec otherCurve x' y' =>
    by_cases hcurve : curve = otherCurve
    · exact ⟨x', y', by rw [hcurve]⟩
    · simp only [denotes, if_neg hcurve] at h
      cases h

/-- The key of a certificate is on the curve that the length of its coordinates tells, and the
curve that the certificate names is not looked at. So this length is what the attestation of a
security key and the comparison with a credential key settle; where a certificate of a key on a
curve names the curve of that length, they settle the curve that it names. -/
theorem Certificate.curve_told_by_length (c : Certificate) :
    (∀ curve x y, c.publicKey = .ok (.ec curve x y) ↔
      c.keyAlgorithm = ecId ∧ c.HasPoint curve x y) ∧
    (c.CurveDecidesKey ↔
      (c.keyAlgorithm = ecId → ∀ curve x y, c.HasPoint curve x y → c.NamesCurve curve)) ∧
    (∀ (s : FidoU2fStatement) r v, s.verify r = .ok v → BeginsWith s.certificates c →
      (∃ x y, c.HasPoint .p256 x y) ∧ (c.CurveDecidesKey → c.NamesCurve .p256)) ∧
    ∀ key alg curve x y, c.publicKey = .ok key →
      (CredentialKey.ec2 alg curve x y).denotes key = .ok true →
      (∃ x' y', c.HasPoint curve x' y') ∧ (c.CurveDecidesKey → c.NamesCurve curve) := by
  have settled {curve : Curve} {x y : Bytes} (hkey : c.publicKey = .ok (.ec curve x y)) :
      (∃ x' y', c.HasPoint curve x' y') ∧ (c.CurveDecidesKey → c.NamesCurve curve) :=
    ⟨⟨x, y, (publicKey_eq_ec_iff.1 hkey).2⟩, fun h => (h.named curve x y hkey).1⟩
  refine ⟨fun curve x y => publicKey_eq_ec_iff, curveDecidesKey_iff, fun s r v h hc => ?_,
    fun key alg curve x y hkey hdenotes => ?_⟩
  · obtain ⟨x, y, hkey⟩ := (FidoU2fStatement.verify_eq_ok.1 h).1.publicKey hc
    exact settled hkey
  · obtain ⟨x', y', rfl⟩ := CredentialKey.eq_ec_of_denotes hdenotes
    exact settled hkey

namespace CurveSample

open AppleSample (element)

/-- The coordinates of the key: those of the base point of secp256k1. -/
def x : Bytes :=
  Bytes.ofNat 32 0x79be667ef9dcbbac55a06295ce870b07029bfcdb2dce28d959f2815b16f81798

def y : Bytes :=
  Bytes.ofNat 32 0x483ada7726a3c4655da4fbfc0e1108a8fd17b448a68554199c47d08ffb10d4b8

/-- The content of the object identifier of secp256k1: 1.3.132.0.10. -/
def secp256k1Id : Bytes := [0x2b, 0x81, 0x04, 0x00, 0x0a]

/-- A certificate of the key that names the curve with the given object identifier. -/
def certificate (curveId : Bytes) : Bytes :=
  let algorithm := element 0x30 (element 0x06 Certificate.ed25519Id)
  let time := element 0x17 (Bytes.ofText "250101000000Z")
  let keyAlgorithm := element 0x30 (element 0x06 Certificate.ecId ++ element 0x06 curveId)
  element 0x30 (element 0x30 (element 0xa0 [0x02, 0x01, 0x02] ++ [0x02, 0x01, 0x01] ++ algorithm ++
      element 0x30 [] ++ element 0x30 (time ++ time) ++ element 0x30 [] ++
      element 0x30 (keyAlgorithm ++ element 0x03 (0 :: 0x04 :: (x ++ y)))) ++
    algorithm ++ element 0x03 [0])

/-- What the certificate says. -/
def parsed (curveId : Bytes) : Certificate :=
  ⟨2, [], Certificate.ecId, some ⟨.universal, false, 6, curveId⟩, 0x04 :: (x ++ y), []⟩

end CurveSample

open CurveSample (x y secp256k1Id certificate parsed)

/-- The certificate names P-256, with a point of the length of P-256. -/
theorem Certificate.curve_told_by_length_sample :
    Certificate.parse (certificate (Curve.objectId .p256)) = .ok (parsed (Curve.objectId .p256)) ∧
      (parsed (Curve.objectId .p256)).publicKey = .ok (.ec .p256 x y) ∧
      (parsed (Curve.objectId .p256)).CurveDecidesKey := by
  have hparse : Certificate.parse (certificate (Curve.objectId .p256)) =
      .ok (parsed (Curve.objectId .p256)) := by decide +kernel
  have hpoint : (parsed (Curve.objectId .p256)).HasPoint .p256 x y := ⟨rfl, rfl, rfl⟩
  obtain ⟨hkey, hdecides, -⟩ := Certificate.curve_told_by_length (parsed (Curve.objectId .p256))
  refine ⟨hparse, (hkey _ _ _).2 ⟨rfl, hpoint⟩, hdecides.2 fun _ curve x' y' hpoint' => ?_⟩
  -- The point of the sample has the length of no other curve.
  have hlength : (0x04 :: (x' ++ y')).length = 65 := congrArg List.length hpoint'.keyBits.symm
  rw [List.length_cons, List.length_append, hpoint'.length_x, hpoint'.length_y] at hlength
  cases curve with
  | p256 => exact ⟨rfl, rfl⟩
  | p384 | p521 => cases hlength

/-- The certificate names secp256k1, and its key is taken for one on P-256. -/
theorem Certificate.publicKey_of_secp256k1 :
    Certificate.parse (certificate secp256k1Id) = .ok (parsed secp256k1Id) ∧
      (parsed secp256k1Id).NamesCurveId secp256k1Id ∧
      (∀ curve : Curve, curve.objectId ≠ secp256k1Id) ∧
      (parsed secp256k1Id).publicKey = .ok (.ec .p256 x y) ∧
      ¬(parsed secp256k1Id).CurveDecidesKey := by
  have hparse : Certificate.parse (certificate secp256k1Id) = .ok (parsed secp256k1Id) := by
    decide +kernel
  have hother (curve : Curve) : curve.objectId ≠ secp256k1Id := by
    cases curve <;> decide
  have hkey : (parsed secp256k1Id).publicKey = .ok (.ec .p256 x y) := by decide +kernel
  refine ⟨hparse, ⟨rfl, rfl⟩, hother, hkey, fun h => ?_⟩
  obtain ⟨fault, hfault⟩ := h.other secp256k1Id ⟨rfl, rfl⟩ hother
  rw [hkey] at hfault
  cases hfault

end Attestation
