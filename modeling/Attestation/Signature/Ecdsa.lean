import Attestation.Digest
import Attestation.Signature.PrimeCurve
import Attestation.Reader

/-!
# ECDSA

A signature is a pair `(r, s)` of numbers from 1 to below the order of the base point, either in the
distinguished encoding of a sequence of two integers or as two numbers of a fixed length.
-/

namespace Attestation.Ecdsa

/-- A signature. -/
structure Signature where
  r : Nat
  s : Nat
  deriving DecidableEq, Repr

/-- Takes a length in its shortest form, up to 65535. -/
def readLength : Reader Nat := fun b => do
  let (first, b) ← Reader.byte b
  if first < 0x80 then return (first.toNat, b)
  else if first = 0x81 then do
    let (n, b) ← Reader.number 1 b
    if 0x80 ≤ n then return (n, b) else none
  else if first = 0x82 then do
    let (n, b) ← Reader.number 2 b
    if 0x100 ≤ n then return (n, b) else none
  else none

/-- Takes the contents of an element with the given identifier byte. -/
def readElement (identifier : UInt8) : Reader Bytes := fun b => do
  let (first, b) ← Reader.byte b
  if first = identifier then do
    let (length, b) ← readLength b
    b.splitAt? length
  else none

/-- The positive number whose shortest two's complement form the bytes are. -/
def positive? : Bytes → Option Nat
  | [] => none
  | 0 :: d :: b => if 0x80 ≤ d then some (Bytes.toNat (d :: b)) else none
  | d :: b => if d = 0 ∨ 0x80 ≤ d then none else some (Bytes.toNat (d :: b))

namespace Signature

/-- The signature that the bytes encode as a sequence of two integers. -/
def ofDer? (b : Bytes) : Option Signature := do
  let (contents, rest) ← readElement 0x30 b
  let (r, more) ← readElement 0x02 contents
  let (s, after) ← readElement 0x02 more
  if rest = [] ∧ after = [] then return ⟨← positive? r, ← positive? s⟩ else failure

/-- The signature that the bytes encode as two numbers of the given length. -/
def ofFixed? (length : Nat) (b : Bytes) : Option Signature :=
  if b.length = 2 * length then some ⟨Bytes.toNat (b.take length), Bytes.toNat (b.drop length)⟩
  else none

end Signature

/-- The signature is one of the hashed message under the key: with `u = z / s` and `v = r / s`,
where `z` is the hash, the point `u G + v Q` has the x-coordinate `r` modulo the order. -/
def accepts (c : PrimeCurve) (key : JacobianPoint) (hash : Bytes) (sig : Signature) : Bool :=
  if 0 < sig.r ∧ sig.r < c.n ∧ 0 < sig.s ∧ sig.s < c.n then
    let w := Residue.inverse c.n sig.s
    let u := hash.toNat * w % c.n
    let v := sig.r * w % c.n
    let bits := 8 * c.length
    let point := c.add (c.multiple ⟨c.baseX, c.baseY, 1⟩ bits u) (c.multiple key bits v)
    match c.affineX? point with
    | some x => x % c.n == sig.r
    | none => false
  else false

/-- The bytes `point` encode a key under which `sig` signs the message. -/
def verify (c : PrimeCurve) (digest : Digest) (point message : Bytes) (sig : Option Signature) :
    Bool :=
  match c.decodePoint? point, sig with
  | some key, some sig => accepts c key (digest.hash message) sig
  | _, _ => false

end Attestation.Ecdsa
