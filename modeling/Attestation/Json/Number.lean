import Attestation.Bytes

/-!
# Numbers of JSON

A number by the digits that it is written with. It may be an integer of 64 bits
(`Number.integer?`), and it may be too large for a floating-point number of 64 bits
(`Number.InRange`). The second is told as a reader tells it that computes in such numbers: as many
digits as fit 64 bits are multiplied by a power of ten, where both factors and the product are
rounded.
-/

namespace Attestation.Json

/-- The digit that a byte is in ASCII. -/
def digit? (d : UInt8) : Option Nat :=
  if 0x30 ≤ d ∧ d ≤ 0x39 then some (d.toNat - 0x30) else none

/-- The number that digits write after the digits of another one. -/
def digitsValue (n : Nat) (digits : List Nat) : Nat :=
  digits.foldl (fun n d => 10 * n + d) n

/-- A number, by its digits. -/
structure Number where
  negative : Bool
  /-- The digits before the point. -/
  whole : List Nat
  /-- The digits after the point, none if there is no point. -/
  fraction : List Nat
  negativeExponent : Bool
  /-- The digits of the exponent, none if there is no exponent. -/
  exponent : List Nat
  deriving DecidableEq, Repr

namespace Number

/-- The integer of 64 bits that is written without fraction and exponent. Zero has no sign. -/
def integer? (x : Number) : Option Int :=
  let n := digitsValue 0 x.whole
  if x.fraction ≠ [] ∨ x.exponent ≠ [] then none
  else if x.negative then
    if 0 < n ∧ n ≤ 2 ^ 63 then some (-n) else none
  else
    if n < 2 ^ 63 then some n else none

/-! ## Range -/

/-- The nearest number with zeros after its first 53 bits. Of two as near, it is the one whose last
bit of these is zero. -/
def roundBits (n : Nat) : Nat :=
  let unit := 2 ^ (n.log2 - 52)
  if unit < 2 * (n % unit) ∨ unit = 2 * (n % unit) ∧ n / unit % 2 = 1 then (n / unit + 1) * unit
  else n / unit * unit

/-- The smallest number that is rounded to infinity. -/
def overflow : Nat := 2 ^ 1024 - 2 ^ 970

/-- The significand times the power of ten, as it is computed, is not infinite. Powers of ten are
known up to the last one that is not. -/
def Finite (significand : Nat) (exponent : Int) : Prop :=
  significand = 0 ∨ exponent < 0 ∨
    exponent ≤ 308 ∧ roundBits significand * roundBits (10 ^ exponent.toNat) < overflow

instance (significand : Nat) (exponent : Int) : Decidable (Finite significand exponent) :=
  inferInstanceAs (Decidable (_ ∨ _ ∨ _))

/-- Takes digits into a significand as long as it fits 64 bits, and leaves the others. -/
def takeDigits : (significand : Nat) → List Nat → Nat × List Nat
  | n, [] => (n, [])
  | n, d :: digits =>
    if 10 * n + d < 2 ^ 64 then takeDigits (10 * n + d) digits else (n, d :: digits)

/-- The significand of a number, and the exponent that its digits leave: a digit before the point
that is not taken counts for it, and one after the point that is taken counts against it. -/
def scale (x : Number) : Nat × Int :=
  let (significand, dropped) := takeDigits 0 x.whole
  let (significand, ignored) := takeDigits significand x.fraction
  (significand, dropped.length - (x.fraction.length - ignored.length : Nat))

/-- The number is not too large for a floating-point number. An exponent beyond 32 bits is not
computed with: if it is positive, only zero is not too large. -/
def InRange (x : Number) : Prop :=
  if digitsValue 0 x.exponent < 2 ^ 31 then
    Finite x.scale.1 (if x.negativeExponent then x.scale.2 - digitsValue 0 x.exponent
      else x.scale.2 + digitsValue 0 x.exponent)
  else x.negativeExponent = true ∨ x.scale.1 = 0

instance (x : Number) : Decidable x.InRange :=
  inferInstanceAs (Decidable (ite _ _ _))

end Number

end Attestation.Json
