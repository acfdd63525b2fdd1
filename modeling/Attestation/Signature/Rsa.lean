import Attestation.Digest
import Attestation.Signature.Residue

/-!
# RSA signatures

A signature is raised to the public exponent, and the result has to be an encoding of the hashed
message, either the deterministic one that names the hash function (`Padding.pkcs1`) or the
probabilistic one with a salt as long as the digest (`Padding.pss`).
-/

namespace Attestation.Rsa

/-- How the hashed message is encoded before it is raised to the private exponent. -/
inductive Padding where
  | pkcs1
  | pss
  deriving DecidableEq, Repr

/-! ## Keys -/

/-- A public key. -/
structure Key where
  modulus : Nat
  exponent : Nat
  deriving DecidableEq, Repr

namespace Key

/-- The length of the modulus in bits. -/
def bits (k : Key) : Nat :=
  Nat.log2 k.modulus + 1

/-- The length of the modulus in bytes. -/
def length (k : Key) : Nat :=
  (k.bits + 7) / 8

/-- The number that a byte string without leading zero bytes writes. -/
def positive? : Bytes → Option Nat
  | [] => none
  | d :: b => if d = 0 then none else some (Bytes.toNat (d :: b))

/-- The key with the given numbers, if it is fit for verification: the modulus is odd and has 256 to
1024 bytes, and the exponent is odd, at least 3, and has at most 33 bits. -/
def ofBytes? (modulus exponent : Bytes) : Option Key := do
  let key : Key := ⟨← positive? modulus, ← positive? exponent⟩
  if key.modulus % 2 = 1 ∧ 256 ≤ key.length ∧ key.bits ≤ 8192 ∧ key.exponent % 2 = 1 ∧
    3 ≤ key.exponent ∧ key.exponent < 2 ^ 33 then return key else failure

/-- The encoded message under a signature, which has to be as long as the modulus and to write a
positive number below it. -/
def open? (k : Key) (sig : Bytes) : Option Bytes :=
  let s := sig.toNat
  if sig.length = k.length ∧ 0 < s ∧ s < k.modulus then
    some (Bytes.ofNat k.length (Residue.pow k.modulus s k.exponent))
  else none

end Key

/-! ## Encodings -/

/-- The distinguished encoding of a hash function's name and the head of its digest. -/
def digestInfo : Digest → Bytes
  | .sha1 => [0x30, 0x21, 0x30, 0x09, 0x06, 0x05, 0x2b, 0x0e, 0x03, 0x02, 0x1a, 0x05, 0x00, 0x04,
    0x14]
  | .sha256 => [0x30, 0x31, 0x30, 0x0d, 0x06, 0x09, 0x60, 0x86, 0x48, 0x01, 0x65, 0x03, 0x04, 0x02,
    0x01, 0x05, 0x00, 0x04, 0x20]
  | .sha384 => [0x30, 0x41, 0x30, 0x0d, 0x06, 0x09, 0x60, 0x86, 0x48, 0x01, 0x65, 0x03, 0x04, 0x02,
    0x02, 0x05, 0x00, 0x04, 0x30]
  | .sha512 => [0x30, 0x51, 0x30, 0x0d, 0x06, 0x09, 0x60, 0x86, 0x48, 0x01, 0x65, 0x03, 0x04, 0x02,
    0x03, 0x05, 0x00, 0x04, 0x40]

/-- The deterministic encoding in `length` bytes: `00 01`, bytes `ff`, `00`, the name of the hash
function and the digest. -/
def encodePkcs1 (digest : Digest) (length : Nat) (message : Bytes) : Bytes :=
  let tail := digestInfo digest ++ digest.hash message
  0x00 :: 0x01 :: (List.replicate (length - 3 - tail.length) 0xff ++ 0x00 :: tail)

/-- The first `length` bytes of the digests of a seed with a counter of 32 bits after it. -/
def mask (digest : Digest) (seed : Bytes) (length : Nat) : Bytes :=
  let count := (length + digest.size - 1) / digest.size
  ((List.range count).flatMap fun i => digest.hash (seed ++ Bytes.ofNat 4 i)).take length

/-- The byte without its highest bits, of which `bits` are left. -/
def lowBits (bits : Nat) (d : UInt8) : UInt8 :=
  d &&& UInt8.ofNat (2 ^ bits - 1)

/-- The probabilistic encoding of `bits` bits in the bytes `encoded` belongs to the message. It ends
with the byte `bc`; before it stands the digest of eight zero bytes, of the message's digest and of
the salt; before that, masked by it, zero bytes, the byte `01` and the salt. -/
def checkPss (digest : Digest) (bits : Nat) (encoded message : Bytes) : Bool :=
  let size := digest.size
  let maskedLength := encoded.length - size - 1
  let masked := encoded.take maskedLength
  let hash := (encoded.drop maskedLength).take size
  let topBits := 8 - (8 * encoded.length - bits)
  let plain := Bytes.xor masked (mask digest hash maskedLength)
  let plain := lowBits topBits (plain.headD 0) :: plain.tail
  let salt := plain.drop (maskedLength - size)
  2 * size + 2 ≤ encoded.length &&
    lowBits topBits (masked.headD 0) == masked.headD 0 &&
    encoded.getLast? == some 0xbc &&
    plain.take (maskedLength - size) == List.replicate (maskedLength - size - 1) 0 ++ [0x01] &&
    digest.hash (List.replicate 8 0 ++ digest.hash message ++ salt) == hash

/-- The bytes under the signature encode the message. The probabilistic encoding is one bit shorter
than the modulus; if that makes it a byte shorter, a zero byte stands before it. -/
def encodes (padding : Padding) (digest : Digest) (k : Key) (opened message : Bytes) : Bool :=
  match padding with
  | .pkcs1 => opened == encodePkcs1 digest k.length message
  | .pss =>
    if k.bits % 8 = 1 then
      opened.head? == some 0 && checkPss digest (k.bits - 1) opened.tail message
    else checkPss digest (k.bits - 1) opened message

/-- The signature is one of the message under the key with the given numbers. -/
def verify (padding : Padding) (digest : Digest) (modulus exponent message sig : Bytes) : Bool :=
  match Key.ofBytes? modulus exponent with
  | none => false
  | some k =>
    match k.open? sig with
    | none => false
    | some opened => encodes padding digest k opened message

end Attestation.Rsa
