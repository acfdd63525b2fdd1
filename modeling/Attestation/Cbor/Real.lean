import Attestation.Bytes

/-!
# Binary floating-point numbers by their bits

Numbers of 16 and 32 bits are widened to 64 bits, which keeps their value, and numbers of 64 bits
are compared as numbers: zeros of either sign are equal, and what is no number equals nothing.
-/

namespace Attestation.Cbor.Real

/-- The exponent field of infinities and of what is no number. -/
def specialExponent : Nat := 2047

/-- The 64-bit form of a number with the given widths of exponent and fraction. A subnormal number
becomes normal: its leading one moves out of the fraction. -/
def widen (exponentBits fractionBits bits : Nat) : UInt64 :=
  let fraction := bits % 2 ^ fractionBits
  let exponent := bits / 2 ^ fractionBits % 2 ^ exponentBits
  let sign := bits / 2 ^ (fractionBits + exponentBits) % 2
  let bias := 2 ^ (exponentBits - 1) - 1
  let magnitude :=
    if exponent = 2 ^ exponentBits - 1 then
      specialExponent * 2 ^ 52 + fraction * 2 ^ (52 - fractionBits)
    else if exponent = 0 then
      if fraction = 0 then 0 else
        let leading := Nat.log2 fraction
        (1024 + leading - bias - fractionBits) * 2 ^ 52 +
          (fraction - 2 ^ leading) * 2 ^ (52 - leading)
    else
      (exponent + 1023 - bias) * 2 ^ 52 + fraction * 2 ^ (52 - fractionBits)
  UInt64.ofNat (sign * 2 ^ 63 + magnitude)

/-- The bits are no number. -/
def isNaN (bits : UInt64) : Bool :=
  bits.toNat % 2 ^ 63 > specialExponent * 2 ^ 52

/-- Numeric equality of two numbers given by their bits. -/
def equal (a b : UInt64) : Bool :=
  !isNaN a && !isNaN b && (a == b || (a.toNat % 2 ^ 63 == 0 && b.toNat % 2 ^ 63 == 0))

end Attestation.Cbor.Real
