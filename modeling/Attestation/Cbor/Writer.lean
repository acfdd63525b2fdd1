import Attestation.Cbor.Value

/-!
# Writing an item

The shortest head before each item, strings, arrays and maps with their length, and floating-point
numbers in 64 bits.
-/

namespace Attestation.Cbor

/-- The shortest head with the given number of the major type and the given argument. -/
def headBytes (major n : Nat) : Bytes :=
  let first (minor : Nat) : UInt8 := UInt8.ofNat (major * 32 + minor)
  if n < 24 then [first n]
  else if n < 2 ^ 8 then first 24 :: Bytes.ofNat 1 n
  else if n < 2 ^ 16 then first 25 :: Bytes.ofNat 2 n
  else if n < 2 ^ 32 then first 26 :: Bytes.ofNat 4 n
  else first 27 :: Bytes.ofNat 8 n

namespace Value

mutual

/-- The bytes of an item. -/
def encode : Value → Bytes
  | unsigned n => headBytes 0 n.toNat
  | negative n => headBytes 1 n.toNat
  | bytes b => headBytes 2 b.length ++ b
  | text s => headBytes 3 (Bytes.ofText s).length ++ Bytes.ofText s
  | array vs => headBytes 4 vs.length ++ encodeItems vs
  | map vs => headBytes 5 vs.length ++ encodeEntries vs
  | tag n v => headBytes 6 n.toNat ++ encode v
  | bool b => headBytes 7 (if b then 21 else 20)
  | null => headBytes 7 22
  | real bits => 0xfb :: Bytes.ofNat 8 bits.toNat

/-- The bytes of the items of an array. -/
def encodeItems : List Value → Bytes
  | [] => []
  | v :: vs => encode v ++ encodeItems vs

/-- The bytes of the entries of a map. -/
def encodeEntries : Entries → Bytes
  | [] => []
  | (k, v) :: vs => encode k ++ encode v ++ encodeEntries vs

end

end Value

end Attestation.Cbor
