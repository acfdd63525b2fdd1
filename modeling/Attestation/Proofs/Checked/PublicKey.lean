import Attestation.Checked.PublicKey
import Attestation.Proofs.Number

/-!
# Points are encoded in range

A coordinate that is not longer than the curve says ends where its place ends, and begins behind
what the buffer holds already (`PublicKey.append_eq`). So the buffer only grows, and it ends as the
encoded point (`PublicKey.checkedPoint_eq`).
-/

namespace Attestation

namespace Bytes

/-- A number that is not too long is filled up to the given length. -/
theorem length_padZeros {n : Nat} {b : Bytes} (h : b.length ≤ n) : (b.padZeros n).length = n := by
  rw [padZeros, List.length_append, List.length_replicate, Nat.sub_add_cancel h]

end Bytes

namespace PublicKey

/-- A buffer that is not cut off only grows. -/
theorem resize_of_le {size : Nat} {buffer : Bytes} (h : buffer.length ≤ size) :
    Checked.resize size buffer = buffer ++ List.replicate (size - buffer.length) 0 := by
  rw [Checked.resize, List.take_of_length_le h]

/-- A number with a place of its own behind the buffer. -/
theorem append_eq {length stop : Nat} {b buffer : Bytes} (hb : b.length ≤ length)
    (hstop : buffer.length + length = stop) :
    Checked.append stop b buffer = .ok (buffer ++ b.padZeros length) := by
  have hle : b.length ≤ stop := by omega
  have hgrows : buffer.length ≤ stop - b.length := by omega
  have hzeros : stop - b.length - buffer.length = length - b.length := by omega
  rw [Checked.append, Checked.sub_of_le hle]
  dsimp only [bind, Except.bind]
  rw [resize_of_le hgrows, hzeros, List.append_assoc]
  rfl

/-- The buffer with the first coordinate. -/
theorem append_first {curve : Curve} {x : Bytes} (hx : x.length ≤ curve.coordinateLength) :
    Checked.append (1 + curve.coordinateLength) x [0x04] =
      .ok (0x04 :: x.padZeros curve.coordinateLength) :=
  append_eq hx rfl

/-- The buffer with both coordinates. -/
theorem append_second {curve : Curve} {x y : Bytes} (hx : x.length ≤ curve.coordinateLength)
    (hy : y.length ≤ curve.coordinateLength) :
    Checked.append (1 + 2 * curve.coordinateLength) y
        (0x04 :: x.padZeros curve.coordinateLength) =
      .ok (0x04 :: x.padZeros curve.coordinateLength ++ y.padZeros curve.coordinateLength) := by
  refine append_eq hy ?_
  rw [List.length_cons, Bytes.length_padZeros hx]
  omega

/-- The coordinates of a point are copied without a failure: their lengths were compared before. -/
theorem checkedEncodePoint_eq (curve : Curve) (x y : Bytes) :
    Checked.encodePoint curve x y = Checked.ofResult (encodePoint curve x y) := by
  rw [Checked.encodePoint, Checked.liftM_eq_pure (Checked.trimZeros_eq x), pure_bind,
    Checked.liftM_eq_pure (Checked.trimZeros_eq y), pure_bind, encodePoint]
  split
  · rfl
  · rename_i hlong
    obtain ⟨hx, hy⟩ := not_or.1 hlong
    have hx := Nat.le_of_not_lt hx
    rw [Checked.liftM_eq_pure (append_first hx), pure_bind,
      Checked.liftM_eq_pure (append_second hx (Nat.le_of_not_lt hy))]
    rfl

/-- The point of a key on a curve by the buffer that holds its first coordinate: before the second
one is written, the buffer is resized to no less than it holds. -/
theorem point_eq_resize {curve : Curve} {x y : Bytes}
    (hx : x.trimZeros.length ≤ curve.coordinateLength)
    (hy : y.trimZeros.length ≤ curve.coordinateLength) :
    ∃ buffer size, Checked.append (1 + curve.coordinateLength) x.trimZeros [0x04] = .ok buffer ∧
      Checked.sub (1 + 2 * curve.coordinateLength) y.trimZeros.length = .ok size ∧
      buffer.length ≤ size ∧
      point (.ec curve x y) = .ok (Checked.resize size buffer ++ y.trimZeros) := by
  have hsize : y.trimZeros.length ≤ 1 + 2 * curve.coordinateLength := by omega
  have hbuffer : (0x04 :: x.trimZeros.padZeros curve.coordinateLength).length =
      1 + curve.coordinateLength := by
    rw [List.length_cons, Bytes.length_padZeros hx, Nat.add_comm]
  refine ⟨_, _, append_first hx, Checked.sub_of_le hsize, by omega, ?_⟩
  have hsecond := append_second hx hy
  rw [Checked.append, Checked.sub_of_le hsize] at hsecond
  have hpoint : point (.ec curve x y) = .ok (0x04 :: x.trimZeros.padZeros curve.coordinateLength ++
      y.trimZeros.padZeros curve.coordinateLength) :=
    if_neg (not_or.2 ⟨Nat.not_lt_of_le hx, Nat.not_lt_of_le hy⟩)
  rw [hpoint, ← Except.ok.inj hsecond]

/-- The point of a key is written without a failure. -/
theorem checkedPoint_eq (key : PublicKey) : Checked.point key = Checked.ofResult key.point := by
  cases key with
  | rsa _ _ | ed25519 _ => rfl
  | ec curve x y => exact checkedEncodePoint_eq curve x y

end PublicKey

end Attestation
