import Attestation.Base64
import Attestation.Json.Reader
import Attestation.SafetyNet.TokenAlgorithm
import Attestation.SafetyNet.WebKey
import Attestation.Signature

/-!
# Signed tokens

A token has three parts with points between them: header, payload and signature, each in base 64.
What is signed are the characters of the first two parts with the point. The parts are found one by
one: the signature signs what is before the last point, the header is before the last point of that,
and the payload comes after the first point. The header is a record that names the algorithm and, it
may be, the certificates of the signer; members that no verification needs still have to be of their
types.
-/

namespace Attestation.SafetyNet

open Json (Value)

/-- The header of a token. -/
structure TokenHeader where
  alg : TokenAlgorithm
  /-- The certificates of the signer, in base 64, if the header has the list. -/
  certificates : Option (List String)
  deriving DecidableEq, Repr

/-- The parts of a token, in base 64. -/
structure Token where
  header : Bytes
  payload : Bytes
  signature : Bytes
  /-- What is signed. -/
  signed : Bytes
  deriving DecidableEq, Repr

namespace TokenHeader

/-- The names of the members, in their order. -/
def names : List String :=
  ["typ", "alg", "cty", "jku", "jwk", "kid", "x5u", "x5c", "x5t", "x5t#S256"]

/-- The names of the members that are texts, if they are there. -/
def textNames : List String :=
  ["typ", "cty", "jku", "kid", "x5u", "x5t", "x5t#S256"]

/-- The key that a value is. -/
def webKey? (v : Value) : Option Unit :=
  if WebKey.isWebKey v then some () else none

/-- The header that a value is. -/
def ofJson? (v : Value) : Option TokenHeader := do
  let members ← v.record? names
  let name ← (members.get? "alg").bind Value.name?
  let alg ← TokenAlgorithm.ofName? name
  let certificates ← members.optional "x5c" Value.texts?
  let _ ← members.optional "jwk" webKey?
  let _ ← textNames.mapM fun name => members.optional name Value.text?
  return ⟨alg, certificates⟩

end TokenHeader

namespace Token

/-- The character between the parts. -/
def point : UInt8 := 0x2e

/-- The bytes before the first point and the bytes after it. -/
def splitPoint? (b : Bytes) : Option (Bytes × Bytes) :=
  let front := b.takeWhile (· != point)
  match b.drop front.length with
  | _ :: rest => some (front, rest)
  | [] => none

/-- The bytes before the last point and the bytes after it. -/
def splitLastPoint? (b : Bytes) : Option (Bytes × Bytes) :=
  (splitPoint? b.reverse).map fun (back, front) => (front.reverse, back.reverse)

/-- The bytes after the first point, up to the next one if there is one. -/
def secondPart? (b : Bytes) : Option Bytes :=
  (splitPoint? b).map fun (_, b) => b.takeWhile (· != point)

/-- The token that the bytes are. Its signature and its header are found from the end, its payload
from the beginning. -/
def ofBytes? (b : Bytes) : Option Token := do
  let (signed, signature) ← splitLastPoint? b
  let (header, _) ← splitLastPoint? signed
  let payload ← secondPart? b
  return ⟨header, payload, signature, signed⟩

/-- The token that the bytes are, and its header. -/
def parse (b : Bytes) : Result (Token × TokenHeader) :=
  let parsed := do
    let token ← ofBytes? b
    let header ← TokenHeader.ofJson? (← Value.parse? (← Base64.decode Base64.url token.header))
    return (token, header)
  match parsed with
  | some x => .ok x
  | none => .error (.malformedInput .tokenHeader)

/-! ## Signatures -/

/-- How a signature of an algorithm is verified, for the algorithms that go with keys of a
certificate. -/
inductive Scheme where
  | rsa (padding : Rsa.Padding) (digest : Digest)
  | ecdsa (curve : PrimeCurve) (digest : Digest)

/-- How a signature of the algorithm is verified, if that is done here. -/
def scheme? : TokenAlgorithm → Option Scheme
  | .rs256 => some (.rsa .pkcs1 .sha256)
  | .rs384 => some (.rsa .pkcs1 .sha384)
  | .rs512 => some (.rsa .pkcs1 .sha512)
  | .ps256 => some (.rsa .pss .sha256)
  | .ps384 => some (.rsa .pss .sha384)
  | .ps512 => some (.rsa .pss .sha512)
  | .es256 => some (.ecdsa .p256 .sha256)
  | .es384 => some (.ecdsa .p384 .sha384)
  | .hs256 | .hs384 | .hs512 | .edDSA => none

/-- Refuses a signature that was not accepted. -/
def require (accepted : Option Bool) : Result Unit :=
  if accepted = some true then .ok () else .error (.signatureInvalid .tokenRejected)

/-- Verifies that the token is signed with the algorithm under the key. A signature on a curve is
two numbers of the length of the curve. -/
def verify (t : Token) (alg : TokenAlgorithm) (key : PublicKey) : Result Unit :=
  let signature := Base64.decode Base64.url t.signature
  match scheme? alg, key with
  | some (.rsa padding digest), .rsa modulus exponent =>
    require (signature.map fun sig => Rsa.verify padding digest modulus exponent t.signed sig)
  | some (.ecdsa c digest), .ec curve x y => do
    let point ← PublicKey.encodePoint curve x y
    require (signature.map fun sig =>
      Ecdsa.verify c digest point t.signed (Ecdsa.Signature.ofFixed? c.length sig))
  | _, _ => .error (.signatureInvalid (.tokenKey alg key.kind))

end Token

end Attestation.SafetyNet
