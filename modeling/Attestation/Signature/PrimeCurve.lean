import Attestation.Bytes
import Attestation.Signature.Residue

/-!
# Groups of prime curves

The curves `y² = x³ - 3x + b` over a prime field, with a base point of prime order. Points are added
in Jacobian coordinates: `(x, y, z)` stands for the affine point `(x / z², y / z³)`, and `z = 0` for
the point at infinity, so that only the last result needs an inverse.
-/

namespace Attestation

/-- A curve `y² = x³ - 3x + b` over the field of `p` elements, with a base point of order `n`. -/
structure PrimeCurve where
  p : Nat
  b : Nat
  n : Nat
  baseX : Nat
  baseY : Nat
  /-- The length of a coordinate in bytes. -/
  length : Nat

/-- A point in Jacobian coordinates. -/
structure JacobianPoint where
  x : Nat
  y : Nat
  z : Nat
  deriving DecidableEq, Repr

namespace PrimeCurve

/-- P-256. -/
def p256 : PrimeCurve where
  p := 0xffffffff00000001000000000000000000000000ffffffffffffffffffffffff
  b := 0x5ac635d8aa3a93e7b3ebbd55769886bc651d06b0cc53b0f63bce3c3e27d2604b
  n := 0xffffffff00000000ffffffffffffffffbce6faada7179e84f3b9cac2fc632551
  baseX := 0x6b17d1f2e12c4247f8bce6e563a440f277037d812deb33a0f4a13945d898c296
  baseY := 0x4fe342e2fe1a7f9b8ee7eb4a7c0f9e162bce33576b315ececbb6406837bf51f5
  length := 32

/-- P-384. -/
def p384 : PrimeCurve where
  p :=
    0xfffffffffffffffffffffffffffffffffffffffffffffffffffffffffffffffeffffffff0000000000000000ffffffff
  b :=
    0xb3312fa7e23ee7e4988e056be3f82d19181d9c6efe8141120314088f5013875ac656398d8a2ed19d2a85c8edd3ec2aef
  n :=
    0xffffffffffffffffffffffffffffffffffffffffffffffffc7634d81f4372ddf581a0db248b0a77aecec196accc52973
  baseX :=
    0xaa87ca22be8b05378eb1c71ef320ad746e1d3b628ba79b9859f741e082542a385502f25dbf55296c3a545e3872760ab7
  baseY :=
    0x3617de4a96262c6f5d9e98bf9292dc29f8f41dbd289a147ce9da3113b5f0b8c00a60b1ce1d7e819d7a431d7c90ea0e5f
  length := 48

variable (c : PrimeCurve)

/-- The affine point lies on the curve. -/
def contains (x y : Nat) : Bool :=
  y * y % c.p == Residue.sub c.p (x * x * x + c.b) (3 * x)

/-- The point at infinity. -/
def infinity : JacobianPoint := ⟨1, 1, 0⟩

/-- Twice a point. -/
def double (a : JacobianPoint) : JacobianPoint :=
  let sub := Residue.sub c.p
  let zz := a.z * a.z % c.p
  let yy := a.y * a.y % c.p
  let slope := 3 * (sub a.x zz * (a.x + zz)) % c.p
  let s := 4 * a.x * yy % c.p
  let x := sub (slope * slope) (2 * s)
  ⟨x, sub (slope * sub s x) (8 * yy * yy), 2 * a.y * a.z % c.p⟩

/-- The sum of two points. -/
def add (a b : JacobianPoint) : JacobianPoint :=
  if a.z = 0 then b
  else if b.z = 0 then a
  else
    let sub := Residue.sub c.p
    let zza := a.z * a.z % c.p
    let zzb := b.z * b.z % c.p
    let xa := a.x * zzb % c.p
    let xb := b.x * zza % c.p
    let ya := a.y * zzb * b.z % c.p
    let yb := b.y * zza * a.z % c.p
    let h := sub xb xa
    let r := sub yb ya
    if h = 0 then
      if r = 0 then c.double a else infinity
    else
      let hh := h * h % c.p
      let hhh := h * hh % c.p
      let v := xa * hh % c.p
      let x := sub (r * r) (hhh + 2 * v)
      ⟨x, sub (r * sub v x) (ya * hhh), h * a.z * b.z % c.p⟩

/-- A multiple of a point, for factors of at most `bits` bits. -/
def multiple (a : JacobianPoint) : (bits factor : Nat) → JacobianPoint
  | 0, _ => infinity
  | bits + 1, factor =>
    let twice := c.double (multiple a bits (factor / 2))
    if factor % 2 = 1 then c.add twice a else twice

/-- The affine x-coordinate of a point, if it is not at infinity. -/
def affineX? (a : JacobianPoint) : Option Nat :=
  if a.z = 0 then none
  else
    let inverse := Residue.inverse c.p a.z
    some (a.x * (inverse * inverse % c.p) % c.p)

/-- The point that a byte string encodes: the byte `04` and two coordinates, each below `p`, of a
point on the curve. -/
def decodePoint? (b : Bytes) : Option JacobianPoint :=
  match b with
  | 0x04 :: coordinates =>
    let x := Bytes.toNat (coordinates.take c.length)
    let y := Bytes.toNat (coordinates.drop c.length)
    if coordinates.length = 2 * c.length ∧ x < c.p ∧ y < c.p ∧ c.contains x y then some ⟨x, y, 1⟩
    else none
  | _ => none

end PrimeCurve

end Attestation
