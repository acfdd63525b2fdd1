import Attestation.Digest
import Attestation.Signature.Residue

/-!
# Ed25519

Signatures on the twisted Edwards curve `-x² + y² = 1 + d x² y²` over the field of `2²⁵⁵ - 19`
elements. Points are added in extended coordinates `(x, y, z, t)`, which stand for the affine point
`(x / z, y / z)` with `t = x y / z`; the one addition formula holds for all pairs of points.
-/

namespace Attestation.Ed25519

/-- The order of the field. -/
def p : Nat := 2 ^ 255 - 19

/-- The order of the base point. -/
def order : Nat := 2 ^ 252 + 27742317777372353535851937790883648493

/-- The coefficient of the curve: -121665 / 121666. -/
def d : Nat := 37095705934669439343138083508754565189542113879843219016388785533085940283555

/-- A square root of -1. -/
def sqrtMinusOne : Nat :=
  19681161376707505956807079304988542015446066515923890162744021073123829784752

/-- A point in extended coordinates. -/
structure Point where
  x : Nat
  y : Nat
  z : Nat
  t : Nat
  deriving DecidableEq, Repr

namespace Point

/-- The affine point with the given coordinates. -/
def affine (x y : Nat) : Point := ⟨x, y, 1, x * y % p⟩

/-- The neutral point. -/
def zero : Point := affine 0 1

/-- The base point. -/
def base : Point :=
  affine 15112221349535400772501151409588531511454012693041857206046113283949847762202
    46316835694926478169428394003475163141307993866256225615783033603165251855960

/-- The sum of two points. -/
def add (a b : Point) : Point :=
  let s := Residue.sub p a.y a.x * Residue.sub p b.y b.x % p
  let u := (a.y + a.x) * (b.y + b.x) % p
  let v := 2 * d * a.t * b.t % p
  let w := 2 * a.z * b.z % p
  let e := Residue.sub p u s
  let f := Residue.sub p w v
  let g := (w + v) % p
  let h := (u + s) % p
  ⟨e * f % p, g * h % p, f * g % p, e * h % p⟩

/-- The opposite point. -/
def neg (a : Point) : Point :=
  ⟨Residue.sub p 0 a.x, a.y, a.z, Residue.sub p 0 a.t⟩

/-- A multiple of a point, for factors of at most `bits` bits. -/
def multiple (a : Point) : (bits factor : Nat) → Point
  | 0, _ => zero
  | bits + 1, factor =>
    let half := multiple a bits (factor / 2)
    let twice := add half half
    if factor % 2 = 1 then add twice a else twice

/-- The number that a byte string writes in base 256, least significant byte first. -/
def toNatLittle (b : Bytes) : Nat :=
  Bytes.toNat b.reverse

/-- The affine y-coordinate in 255 bits and the parity of the affine x-coordinate, least significant
byte first. -/
def encode (a : Point) : Bytes :=
  let inverse := Residue.inverse p a.z
  let x := a.x * inverse % p
  let y := a.y * inverse % p
  (Bytes.ofNat 32 (x % 2 * 2 ^ 255 + y)).reverse

/-- A square root of `u / v`, if there is one. -/
def sqrtRatio? (u v : Nat) : Option Nat :=
  let v3 := v * v * v % p
  let root := u * v3 * Residue.pow p (u * v3 * v3 * v) ((p - 5) / 8) % p
  let square := root * root * v % p
  if square = u % p then some root
  else if square = Residue.sub p 0 u then some (root * sqrtMinusOne % p)
  else none

/-- The point that 32 bytes encode. The y-coordinate is taken modulo the order of the field, and a
zero x-coordinate may have either sign. -/
def decode? (b : Bytes) : Option Point :=
  if b.length = 32 then
    let n := toNatLittle b
    let y := n % 2 ^ 255 % p
    let yy := y * y % p
    (sqrtRatio? (Residue.sub p yy 1) (d * yy + 1)).map fun root =>
      let x := if root % 2 = n / 2 ^ 255 then root else Residue.sub p 0 root
      affine x y
  else none

end Point

/-- The signature `R ++ S` is one of the message under the key `A`: `S` is below the order, and with
`k` the hash of `R`, `A` and the message, `S B - k A` is encoded as `R`. -/
def verify (key message sig : Bytes) : Bool :=
  let r := sig.take 32
  let s := Point.toNatLittle (sig.drop 32)
  if sig.length = 64 ∧ s < order then
    match Point.decode? key with
    | none => false
    | some a =>
      let k := Point.toNatLittle (Digest.sha512.hash (r ++ key ++ message)) % order
      let sum := Point.add (Point.multiple Point.base 256 s) (Point.multiple a.neg 256 k)
      sum.encode == r
  else false

end Attestation.Ed25519
