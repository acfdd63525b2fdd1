import Attestation.Algorithm.Basic
import Attestation.PublicKey
import Attestation.Signature.Ecdsa
import Attestation.Signature.Ed25519
import Attestation.Signature.Rsa

/-!
# Verifying signatures

`Algorithm.verify` verifies a signature under the algorithm that a statement names. An algorithm
goes with one family of keys, on curves with one curve; what does not go together is refused before
anything is computed.
-/

namespace Attestation

namespace Algorithm

/-- The algorithm with the given identifier. -/
def ofId (n : Int) : Result Algorithm :=
  match ofId? n with
  | some alg => .ok alg
  | none => .error (.unsupportedAlgorithm (.unknown n))

/-- The digest that the algorithm signs with. -/
def digest (alg : Algorithm) : Result Digest :=
  match alg.digest? with
  | some d => .ok d
  | none => .error (.unsupportedAlgorithm .noDigest)

/-- The message hashed by the digest that the algorithm signs with. -/
def hash (alg : Algorithm) (message : Bytes) : Result Bytes := do
  let d ← alg.digest
  return d.hash message

/-- The encoding and the digest of an RSA algorithm. -/
def rsaScheme? : Algorithm → Option (Rsa.Padding × Digest)
  | rs256 => some (.pkcs1, .sha256)
  | rs384 => some (.pkcs1, .sha384)
  | rs512 => some (.pkcs1, .sha512)
  | ps256 => some (.pss, .sha256)
  | ps384 => some (.pss, .sha384)
  | ps512 => some (.pss, .sha512)
  | rs1 => some (.pkcs1, .sha1)
  | es256 | es384 | es512 | edDSA => none

/-- Refuses a signature that was not accepted. -/
def require (alg : Algorithm) (accepted : Bool) : Result Unit :=
  if accepted then .ok () else .error (.signatureInvalid (.rejected alg))

/-- Verifies a signature with the key on a curve, on which the algorithm has to be. -/
def verifyOnCurve (alg : Algorithm) (expected : Curve) (c : PrimeCurve) (digest : Digest)
    (curve : Curve) (x y message sig : Bytes) : Result Unit :=
  if curve = expected then do
    let point ← PublicKey.encodePoint curve x y
    alg.require (Ecdsa.verify c digest point message (Ecdsa.Signature.ofDer? sig))
  else .error (.signatureInvalid (.curve alg curve))

/-- Verifies that `sig` signs the message under the key. -/
def verify (alg : Algorithm) (key : PublicKey) (message sig : Bytes) : Result Unit :=
  match alg, key with
  | es256, .ec curve x y => alg.verifyOnCurve .p256 .p256 .sha256 curve x y message sig
  | es384, .ec curve x y => alg.verifyOnCurve .p384 .p384 .sha384 curve x y message sig
  | es512, _ => .error (.unsupportedAlgorithm .es512)
  | edDSA, .ed25519 x => alg.require (Ed25519.verify x message sig)
  | _, .rsa modulus exponent =>
    match alg.rsaScheme? with
    | some (padding, digest) =>
      alg.require (Rsa.verify padding digest modulus exponent message sig)
    | none => .error (.signatureInvalid (.key alg .rsa))
  | _, _ => .error (.signatureInvalid (.key alg key.kind))

end Algorithm

end Attestation
