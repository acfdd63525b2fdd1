import Attestation.Checked
import Attestation.PublicKey

/-!
# Encoding points in a buffer

The byte `04` and the coordinates are written into one buffer. Before a coordinate the buffer is
resized to where the coordinate begins, which is told by its end and its length.
-/

namespace Attestation.PublicKey.Checked

/-- The buffer with a number at its end, which comes to stand before `stop`. The space in front of
the number is filled with zero bytes; a buffer that reaches into the number is cut off. -/
def append (stop : Nat) (b buffer : Bytes) : Checked Bytes := do
  let size ← Checked.sub stop b.length
  return Checked.resize size buffer ++ b

/-- The byte `04` and the coordinates, each in the length of the curve; a longer number is
refused. -/
def encodePoint (curve : Curve) (x y : Bytes) : CheckedResult Bytes := do
  let length := curve.coordinateLength
  let x ← Checked.trimZeros x
  let y ← Checked.trimZeros y
  if length < x.length ∨ length < y.length then throw (.malformedInput (.coordinateLength length))
  else do
    let buffer ← append (1 + length) x [0x04]
    append (1 + 2 * length) y buffer

/-- The uncompressed point of a key on a curve; other keys have none. -/
def point : PublicKey → CheckedResult Bytes
  | ec curve x y => encodePoint curve x y
  | key => throw (.keyMismatch (.notOnCurve key.kind))

end Attestation.PublicKey.Checked
