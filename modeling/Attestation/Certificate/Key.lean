import Attestation.Certificate.Basic
import Attestation.PublicKey

/-!
# Keys of certificates

`Certificate.publicKey` is the key that a certificate binds. A point has to be uncompressed, and the
length of its coordinates tells the curve, whatever curve the certificate names. A key of a family
that is not verified here is refused; of some of these families the key has to be well-formed for
this.
-/

namespace Attestation.Certificate

open Der

/-- The algorithm Ed25519: 1.3.101.112. -/
def ed25519Id : Bytes := [0x2b, 0x65, 0x70]

/-- RSA keys: 1.2.840.113549.1.1.1. -/
def rsaId : Bytes := [0x2a, 0x86, 0x48, 0x86, 0xf7, 0x0d, 0x01, 0x01, 0x01]

/-- Keys on a curve: 1.2.840.10045.2.1. -/
def ecId : Bytes := [0x2a, 0x86, 0x48, 0xce, 0x3d, 0x02, 0x01]

/-- Keys of the digital signature standard without a curve: 1.2.840.10040.4.1. -/
def dsaId : Bytes := [0x2a, 0x86, 0x48, 0xce, 0x38, 0x04, 0x01]

/-- The keys that are octet strings: 1.2.643.2.2.19, 1.2.643.7.1.1.1.1 and 1.2.643.7.1.1.1.2. -/
def octetKeyIds : List Bytes :=
  [[0x2a, 0x85, 0x03, 0x02, 0x02, 0x13], [0x2a, 0x85, 0x03, 0x07, 0x01, 0x01, 0x01, 0x01],
    [0x2a, 0x85, 0x03, 0x07, 0x01, 0x01, 0x01, 0x02]]

/-- Takes the content of an integer in its shortest form. -/
def readInteger : Reader Bytes := fun b => do
  let (e, b) ← Element.readNumbered TagNumber.integer b
  if Der.isShortestInteger e.content then return (e.content, b) else none

/-- The modulus and the exponent of an RSA key, without leading zero bytes. -/
def rsaKey? (bits : Bytes) : Option PublicKey := do
  let (content, _) ← Element.readSequence bits
  let ((modulus, exponent), _) ← Reader.pair readInteger readInteger content
  return .rsa modulus.trimZeros exponent.trimZeros

/-- The byte before the coordinates of an uncompressed point. -/
def uncompressedMark : UInt8 := 0x04

/-- The two coordinates of an uncompressed point, which have the same length. -/
def coordinates? : Bytes → Option (Bytes × Bytes)
  | mark :: b =>
    if mark = uncompressedMark ∧ b ≠ [] ∧ b.length % 2 = 0 then
      Bytes.splitAt? (b.length / 2) b
    else none
  | [] => none

/-- The key on a curve with the given point. -/
def ecKey (bits : Bytes) : Result PublicKey := do
  let (x, y) ← orFault .compressedPoint (coordinates? bits)
  let curve ← orFault (.coordinateLength x.length) (Curve.ofCoordinateLength? x.length)
  return .ec curve x y

/-- The key of a family that is verified here, or of no such family, is well-formed as far as that
is checked. -/
def wellFormedKey (algorithm bits : Bytes) : Bool :=
  if algorithm = dsaId then (readInteger bits).isSome
  else if algorithm ∈ octetKeyIds then
    (Element.readPrimitive TagNumber.octetString bits).isSome
  else true

/-- The key that the certificate binds. -/
def publicKey (c : Certificate) : Result PublicKey :=
  if c.keyAlgorithm = ed25519Id then .ok (.ed25519 c.keyBits)
  else if c.keyAlgorithm = rsaId then orFault .publicKey (rsaKey? c.keyBits)
  else if c.keyAlgorithm = ecId then ecKey c.keyBits
  else if wellFormedKey c.keyAlgorithm c.keyBits then .error (.certificateInvalid .keyKind)
  else .error (.certificateInvalid .publicKey)

end Attestation.Certificate
