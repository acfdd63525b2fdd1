/-!
# Named curves

The prime curves on which a credential key may lie, by their COSE identifiers, with the length of
one coordinate. The length tells the three apart (`ofCoordinateLength?_coordinateLength`).
-/

namespace Attestation

/-- A prime curve. -/
inductive Curve where
  | p256
  | p384
  | p521
  deriving DecidableEq, Repr

namespace Curve

/-- The name of the curve. -/
def name : Curve → String
  | p256 => "P256"
  | p384 => "P384"
  | p521 => "P521"

/-- The identifier in the COSE registry. -/
def id : Curve → Int
  | p256 => 1
  | p384 => 2
  | p521 => 3

/-- The curve with the given COSE identifier. -/
def ofId? : Int → Option Curve
  | 1 => some p256
  | 2 => some p384
  | 3 => some p521
  | _ => none

/-- The bytes that one affine coordinate takes. -/
def coordinateLength : Curve → Nat
  | p256 => 32
  | p384 => 48
  | p521 => 66

/-- The curve whose coordinates take the given number of bytes. -/
def ofCoordinateLength? : Nat → Option Curve
  | 32 => some p256
  | 48 => some p384
  | 66 => some p521
  | _ => none

theorem ofId?_id (c : Curve) : ofId? c.id = some c := by
  cases c <;> rfl

/-- The lengths of the coordinates tell the curves apart. -/
theorem ofCoordinateLength?_coordinateLength (c : Curve) :
    ofCoordinateLength? c.coordinateLength = some c := by
  cases c <;> rfl

end Curve

end Attestation
