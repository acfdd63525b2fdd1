import Attestation.CredentialKey

/-!
# Public keys

The key that verifies a signature, or that a certificate or a TPM describes. Numbers are big-endian
byte strings. `PublicKey.point` encodes a key on a curve for verification, and
`CredentialKey.denotes` decides whether a credential key is the same key: leading zero bytes do not
matter, and an RSA exponent of zero stands for 65537, as a TPM writes its default exponent.
-/

namespace Attestation

/-- The key that verifies a signature. -/
inductive PublicKey where
  | rsa (modulus exponent : Bytes)
  | ec (curve : Curve) (x y : Bytes)
  | ed25519 (x : Bytes)
  deriving DecidableEq, Repr

namespace PublicKey

/-- The family of the key. -/
def kind : PublicKey → KeyKind
  | rsa _ _ => .rsa
  | ec _ _ _ => .ec
  | ed25519 _ => .ed25519

/-- The key of a credential; RSA numbers lose their leading zero bytes. -/
def ofCredential : CredentialKey → PublicKey
  | .ec2 _ curve x y => ec curve x y
  | .okp _ x => ed25519 x
  | .rsa _ modulus exponent => rsa modulus.trimZeros exponent.trimZeros

/-- The byte `04` and the coordinates, each in the length of the curve; a longer number is
refused. -/
def encodePoint (curve : Curve) (x y : Bytes) : Result Bytes :=
  let length := curve.coordinateLength
  let x := x.trimZeros
  let y := y.trimZeros
  if length < x.length ∨ length < y.length then .error (.malformedInput (.coordinateLength length))
  else .ok (0x04 :: (x.padZeros length ++ y.padZeros length))

/-- The uncompressed point of a key on a curve; other keys have none. -/
def point : PublicKey → Result Bytes
  | ec curve x y => encodePoint curve x y
  | key => .error (.keyMismatch (.notOnCurve key.kind))

end PublicKey

namespace CredentialKey

/-- The byte string of a number without leading zero bytes; an empty one is refused under the name
`field`. -/
def magnitude (field : String) (b : Bytes) : Result Bytes :=
  if b = [] then .error (.malformedInput (.emptyField field)) else .ok b.trimZeros

/-- The exponent 65537, which an exponent of zero stands for. -/
def defaultExponent : Bytes := [0x01, 0x00, 0x01]

/-- The exponent that the given one stands for. -/
def effectiveExponent (e : Bytes) : Bytes :=
  if e = [] then defaultExponent else e

/-- Both numbers are the same, where neither is empty. -/
def sameNumber (field : String) (a b : Bytes) : Result Bool := do
  let a ← magnitude field a
  let b ← magnitude field b
  return a == b

/-- The credential key is the given key. Numbers that are compared must not be empty; the
y-coordinates are compared only if the x-coordinates are the same. -/
def denotes : CredentialKey → PublicKey → Result Bool
  | .rsa _ n e, .rsa modulus exponent => do
    let n ← magnitude "RSA modulus" n
    let e ← magnitude "RSA exponent" e
    let modulus ← magnitude "RSA modulus" modulus
    let exponent ← magnitude "RSA exponent" exponent
    return n == modulus && effectiveExponent e == effectiveExponent exponent
  | .ec2 _ curve x y, .ec otherCurve otherX otherY =>
    if curve = otherCurve then do
      let sameX ← sameNumber "EC x-coordinate" x otherX
      if sameX then sameNumber "EC y-coordinate" y otherY else return false
    else .ok false
  | .okp _ x, .ed25519 otherX =>
    if x = [] ∨ otherX = [] then .error (.malformedInput (.emptyField "Ed25519 public key"))
    else .ok (x == otherX)
  | _, _ => .ok false

end CredentialKey

end Attestation
