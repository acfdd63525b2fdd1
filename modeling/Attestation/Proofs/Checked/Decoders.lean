import Attestation.Proofs.Checked.AuthenticatorData
import Attestation.Proofs.Checked.PublicKey
import Attestation.Proofs.Checked.Tpm

/-!
# Binary decoders stay in range

No byte string stops a decoder: with every slice, index, copy and difference checked, each decoder
ends with a result (`decoders_in_range`).
-/

namespace Attestation

open Tpm (Attest Call Place PublicArea)

/-- The decoders of authenticator data, of attestation structures and of public areas are never
stopped, nor are steps that read a structure in any order, the key of a public area and the point
of a public key. What they answer is what the decoders on readers do; structures of a TPM have to
fit the memory for that. Coordinates that are not longer than the curve says are both written in
full: the buffer that holds the first one is not cut off before the second one. -/
theorem decoders_in_range :
    (∀ b, AuthenticatorData.Checked.parse b = Checked.ofResult (AuthenticatorData.parse b)) ∧
    (∀ b, ∃ x, Attest.Checked.parse b = Checked.ofResult x ∧
      (b.length < 2 ^ 64 → x = Attest.parse b)) ∧
    (∀ b, ∃ x, PublicArea.Checked.parse b = Checked.ofResult x ∧
      (b.length < 2 ^ 64 → x = PublicArea.parse b)) ∧
    (∀ b calls, ∃ p, Call.runAll calls (.start b) = .ok p ∧ p.data = b ∧ p.Inside) ∧
    (∀ area, PublicArea.Checked.key? area = .ok area.key?) ∧
    (∀ key, PublicKey.Checked.point key = Checked.ofResult key.point) ∧
    ∀ curve x y, x.trimZeros.length ≤ curve.coordinateLength →
      y.trimZeros.length ≤ curve.coordinateLength → ∃ buffer size,
        PublicKey.Checked.append (1 + curve.coordinateLength) x.trimZeros [0x04] = .ok buffer ∧
        Checked.sub (1 + 2 * curve.coordinateLength) y.trimZeros.length = .ok size ∧
        buffer.length ≤ size ∧
        PublicKey.point (.ec curve x y) = .ok (Checked.resize size buffer ++ y.trimZeros) :=
  ⟨AuthenticatorData.checkedParse_eq, Attest.simulates_read.parse, PublicArea.simulates_read.parse,
    fun b calls => Call.runAll_of_inside (Place.inside_start b) calls,
    PublicArea.checkedKey?_eq, PublicKey.checkedPoint_eq, fun _ _ _ => PublicKey.point_eq_resize⟩

/-- A structure that ends inside of a field, and a point whose coordinates are shorter than the
curve says. -/
theorem decoders_in_range_sample :
    Attest.Checked.parse [0xff, 0x54, 0x43, 0x47, 0x80, 0x17, 0x00, 0x05, 0x01] =
      Checked.ofResult (.error (.malformedInput (.truncated "qualifiedSigner" 8))) ∧
    ∃ buffer size, PublicKey.Checked.append 33 [0x05] [0x04] = .ok buffer ∧
      Checked.sub 65 1 = .ok size ∧ buffer.length ≤ size ∧
      PublicKey.point (.ec .p256 [0x00, 0x05] [0x07]) =
        .ok (Checked.resize size buffer ++ [0x07]) := by
  obtain ⟨-, hattest, -, -, -, -, hpoint⟩ := decoders_in_range
  obtain ⟨x, hx, hparse⟩ := hattest [0xff, 0x54, 0x43, 0x47, 0x80, 0x17, 0x00, 0x05, 0x01]
  refine ⟨?_, hpoint .p256 [0x00, 0x05] [0x07] (by decide) (by decide)⟩
  rw [hx, hparse (by decide)]
  rfl

end Attestation
