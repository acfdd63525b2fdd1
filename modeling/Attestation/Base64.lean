import Attestation.Bytes

/-!
# Base 64

Three bytes are written as four characters of an alphabet of 64, and what is left over as two or
three, after which `=` fills the last group where the form has padding. Only the canonical text of a
byte string is read: no other characters, the bits that do not count are zero, and the padding is
exact.
-/

namespace Attestation.Base64

/-- A form of base 64. -/
structure Form where
  /-- The character of the digit 62. -/
  digit62 : UInt8
  /-- The character of the digit 63. -/
  digit63 : UInt8
  /-- The last group is filled up. -/
  padded : Bool

/-- The standard form: `+` and `/`, with padding. -/
def standard : Form := ⟨0x2b, 0x2f, true⟩

/-- The form for addresses: `-` and `_`, without padding. -/
def url : Form := ⟨0x2d, 0x5f, false⟩

/-- The character that fills the last group. -/
def padCharacter : UInt8 := 0x3d

/-- The digit that a character is. -/
def digit? (f : Form) (c : UInt8) : Option Nat :=
  if 0x41 ≤ c ∧ c ≤ 0x5a then some (c.toNat - 0x41)
  else if 0x61 ≤ c ∧ c ≤ 0x7a then some (c.toNat - 0x61 + 26)
  else if 0x30 ≤ c ∧ c ≤ 0x39 then some (c.toNat - 0x30 + 52)
  else if c = f.digit62 then some 62
  else if c = f.digit63 then some 63
  else none

/-- The character of a digit. -/
def character (f : Form) (n : Nat) : UInt8 :=
  if n < 26 then UInt8.ofNat (n + 0x41)
  else if n < 52 then UInt8.ofNat (n - 26 + 0x61)
  else if n < 62 then UInt8.ofNat (n - 52 + 0x30)
  else if n = 62 then f.digit62
  else f.digit63

/-- What fills the last group of a text with the given number of characters. -/
def padding (f : Form) (length : Nat) : Bytes :=
  if f.padded then List.replicate ((4 - length % 4) % 4) padCharacter else []

/-! ## Writing -/

/-- The characters of a byte string, without padding. -/
def encodeBody (f : Form) : Bytes → Bytes
  | [] => []
  | [a] => [character f (a.toNat / 4), character f (a.toNat % 4 * 16)]
  | [a, b] => [character f (a.toNat / 4), character f (a.toNat % 4 * 16 + b.toNat / 16),
      character f (b.toNat % 16 * 4)]
  | a :: b :: c :: rest => character f (a.toNat / 4) ::
      character f (a.toNat % 4 * 16 + b.toNat / 16) ::
      character f (b.toNat % 16 * 4 + c.toNat / 64) :: character f (c.toNat % 64) ::
      encodeBody f rest

/-- The text of a byte string. -/
def encode (f : Form) (b : Bytes) : Bytes :=
  let body := encodeBody f b
  body ++ padding f body.length

/-! ## Reading -/

/-- The bytes of characters without padding. -/
def decodeBody (f : Form) : Bytes → Option Bytes
  | [] => some []
  | [_] => none
  | [a, b] => do
    let a ← digit? f a
    let b ← digit? f b
    if b % 16 = 0 then some [UInt8.ofNat (a * 4 + b / 16)] else none
  | [a, b, c] => do
    let a ← digit? f a
    let b ← digit? f b
    let c ← digit? f c
    if c % 4 = 0 then
      some [UInt8.ofNat (a * 4 + b / 16), UInt8.ofNat (b % 16 * 16 + c / 4)]
    else none
  | a :: b :: c :: d :: rest => do
    let a ← digit? f a
    let b ← digit? f b
    let c ← digit? f c
    let d ← digit? f d
    let more ← decodeBody f rest
    return UInt8.ofNat (a * 4 + b / 16) :: UInt8.ofNat (b % 16 * 16 + c / 4) ::
      UInt8.ofNat (c % 4 * 64 + d) :: more

/-- The byte string with the given text. -/
def decode (f : Form) (text : Bytes) : Option Bytes :=
  let body := text.takeWhile (· != padCharacter)
  if text = body ++ padding f body.length then decodeBody f body else none

end Attestation.Base64
