import Attestation.Certificate.Key
import Attestation.Proofs.Result

/-!
# The curve of a certificate's key

A certificate states the curve of its key twice, by the parameters of the key's algorithm and by the
length of the point's coordinates. `Certificate.publicKey` goes by the length alone
(`Certificate.publicKey_eq_ec_iff`). So the certificate's own curve decides its key where the
parameters name the curve of that length, and only there (`Certificate.curveDecidesKey_iff`).
-/

namespace Attestation

open Der (Element)

/-- The content of the object identifier of the curve: 1.2.840.10045.3.1.7, 1.3.132.0.34 and
1.3.132.0.35. -/
def Curve.objectId : Curve → Bytes
  | .p256 => [0x2a, 0x86, 0x48, 0xce, 0x3d, 0x03, 0x01, 0x07]
  | .p384 => [0x2b, 0x81, 0x04, 0x00, 0x22]
  | .p521 => [0x2b, 0x81, 0x04, 0x00, 0x23]

/-- A curve is told by the length of its coordinates. -/
theorem Curve.ofCoordinateLength?_eq_some {n : Nat} {curve : Curve} :
    Curve.ofCoordinateLength? n = some curve ↔ n = curve.coordinateLength := by
  refine ⟨fun h => ?_, fun h => ?_⟩
  · unfold ofCoordinateLength? at h
    split at h
    · cases h; rfl
    · cases h; rfl
    · cases h; rfl
    · cases h
  · rw [h, ofCoordinateLength?_coordinateLength]

namespace Certificate

/-- The key is one on a curve, and the parameters of its algorithm are an object identifier with
this content. -/
def NamesCurveId (c : Certificate) (id : Bytes) : Prop :=
  c.keyAlgorithm = ecId ∧ c.keyParameters = some ⟨.universal, false, 6, id⟩

/-- The key is one on a curve, and the parameters of its algorithm name this curve. -/
def NamesCurve (c : Certificate) (curve : Curve) : Prop :=
  c.NamesCurveId curve.objectId

/-- The bytes of the key are an uncompressed point with these coordinates, in the length of the
curve. -/
structure HasPoint (c : Certificate) (curve : Curve) (x y : Bytes) : Prop where
  keyBits : c.keyBits = 0x04 :: (x ++ y)
  length_x : x.length = curve.coordinateLength
  length_y : y.length = curve.coordinateLength

/-- A key on a curve is one on the curve that the certificate names, with the point that it has, and
a certificate that names another curve has no key. -/
structure CurveDecidesKey (c : Certificate) : Prop where
  named : ∀ curve x y, c.publicKey = .ok (.ec curve x y) → c.NamesCurve curve ∧ c.HasPoint curve x y
  other : ∀ id, c.NamesCurveId id → (∀ curve : Curve, curve.objectId ≠ id) →
    ∃ fault, c.publicKey = .error (.certificateInvalid fault)

/-! ## Points -/

/-- A point is the byte `04` and two halves of the same length, which are not empty. -/
theorem coordinates?_eq_some {bits x y : Bytes} :
    coordinates? bits = some (x, y) ↔ bits = 0x04 :: (x ++ y) ∧ x.length = y.length ∧ x ≠ [] := by
  refine ⟨fun h => ?_, fun h => ?_⟩
  · unfold coordinates? at h
    split at h
    · rename_i mark b
      split at h
      · rename_i hmark
        obtain ⟨rfl, hne, heven⟩ := hmark
        obtain ⟨rfl, hlength⟩ := Bytes.splitAt?_eq_some h
        have hpos := List.length_pos_iff.2 hne
        rw [List.length_append] at hlength heven hpos
        have hx : x ≠ [] := List.length_pos_iff.1 (by omega)
        exact ⟨rfl, by omega, hx⟩
      · cases h
    · cases h
  · rcases h with ⟨rfl, hlength, hx⟩
    have heven : (x ++ y).length = 2 * x.length := by
      rw [List.length_append, hlength]
      omega
    have hhalf : (x ++ y).length / 2 = x.length := by omega
    have hne : x ++ y ≠ [] := by simp [hx]
    rw [coordinates?, if_pos ⟨rfl, hne, by omega⟩, hhalf, Bytes.splitAt?_append]

/-- A key on a curve is a point whose halves have the length of the coordinates of some curve. -/
theorem ecKey_eq_ok {bits : Bytes} {key : PublicKey} :
    ecKey bits = .ok key ↔ ∃ curve x y, key = .ec curve x y ∧ bits = 0x04 :: (x ++ y) ∧
      x.length = curve.coordinateLength ∧ y.length = curve.coordinateLength := by
  refine ⟨fun h => ?_, fun h => ?_⟩
  · obtain ⟨⟨x, y⟩, hpoint, h₁⟩ := bind_eq_ok.1 h
    obtain ⟨curve, hcurve, hkey⟩ := bind_eq_ok.1 h₁
    obtain ⟨hbits, hlength, -⟩ := coordinates?_eq_some.1 (orFault_eq_ok.1 hpoint)
    have hx := Curve.ofCoordinateLength?_eq_some.1 (orFault_eq_ok.1 hcurve)
    exact ⟨curve, x, y, (pure_eq_ok.1 hkey).symm, hbits, hx, hlength.symm.trans hx⟩
  · rcases h with ⟨curve, x, y, rfl, hbits, hx, hy⟩
    have hne : x ≠ [] := by
      rintro rfl
      cases curve <;> cases hx
    refine bind_eq_ok.2 ⟨(x, y), orFault_eq_ok.2 ?_, ?_⟩
    · exact coordinates?_eq_some.2 ⟨hbits, hx.trans hy.symm, hne⟩
    · exact bind_eq_ok.2 ⟨curve, orFault_eq_ok.2 (Curve.ofCoordinateLength?_eq_some.2 hx), rfl⟩

/-- A key without a point of a known curve is a fault of the certificate. -/
theorem raises_ecKey (bits : Bytes) : Raises Error.OfCertificate (ecKey bits) := by
  refine (Raises.orFault _ _).bind fun ⟨x, y⟩ => ?_
  exact (Raises.orFault _ _).bind fun curve => .pure _

/-! ## Keys -/

/-- A key of the type for curves is read from its point alone. -/
theorem publicKey_of_ecId {c : Certificate} (h : c.keyAlgorithm = ecId) :
    c.publicKey = ecKey c.keyBits := by
  rw [publicKey, h, if_neg (by decide), if_neg (by decide), if_pos rfl]

/-- A certificate has a key on a curve if its point has the length of that curve, whatever the
parameters of the algorithm are. -/
theorem publicKey_eq_ec_iff {c : Certificate} {curve : Curve} {x y : Bytes} :
    c.publicKey = .ok (.ec curve x y) ↔ c.keyAlgorithm = ecId ∧ c.HasPoint curve x y := by
  by_cases halg : c.keyAlgorithm = ecId
  · rw [publicKey_of_ecId halg, ecKey_eq_ok]
    refine ⟨fun h => ?_, fun h => ?_⟩
    · obtain ⟨_, _, _, ⟨⟩, hbits, hx, hy⟩ := h
      exact ⟨halg, hbits, hx, hy⟩
    · obtain ⟨-, hbits, hx, hy⟩ := h
      exact ⟨curve, x, y, rfl, hbits, hx, hy⟩
  · refine iff_of_false (fun h => ?_) fun h => halg h.1
    unfold publicKey at h
    split at h
    · cases h
    split at h
    · have hrsa := orFault_eq_ok.1 h
      obtain ⟨_, -, h₁⟩ := Option.bind_eq_some_iff.1 hrsa
      obtain ⟨_, -, h₂⟩ := Option.bind_eq_some_iff.1 h₁
      cases h₂
    split at h
    · cases h
    · cases h

/-- The certificate's own curve decides its key exactly if the parameters name the curve of the
length that the coordinates have. -/
theorem curveDecidesKey_iff {c : Certificate} :
    c.CurveDecidesKey ↔
      (c.keyAlgorithm = ecId → ∀ curve x y, c.HasPoint curve x y → c.NamesCurve curve) := by
  refine ⟨fun h halg curve x y hpoint => ?_,
    fun h => ⟨fun curve x y hkey => ?_, fun id hid hother => ?_⟩⟩
  · exact (h.named curve x y (publicKey_eq_ec_iff.2 ⟨halg, hpoint⟩)).1
  · obtain ⟨halg, hpoint⟩ := publicKey_eq_ec_iff.1 hkey
    exact ⟨h halg curve x y hpoint, hpoint⟩
  · obtain ⟨halg, hparameters⟩ := hid
    rw [publicKey_of_ecId halg]
    cases hkey : ecKey c.keyBits with
    | ok key =>
      obtain ⟨curve, x, y, -, hbits, hx, hy⟩ := ecKey_eq_ok.1 hkey
      obtain ⟨-, hnamed⟩ := h halg curve x y ⟨hbits, hx, hy⟩
      cases hnamed.symm.trans hparameters
      exact absurd rfl (hother curve)
    | error e =>
      obtain ⟨fault⟩ := raises_ecKey _ e hkey
      exact ⟨fault, rfl⟩

end Certificate

end Attestation
