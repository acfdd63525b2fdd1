import Attestation.Der.Element
import Attestation.Der.Time

/-!
# Values of the distinguished encoding

`Value.read` takes a value and checks its form. Values of the universal types that certificates put
into their extensions are decoded, of other universal types only the form is checked, and what has
a tag of another class or no universal type is kept undecoded under its number. The parts of
sequences and sets are read by the basic rules, which allow more than one encoding of a value;
values nest at most `Value.maxDepth` deep.
-/

namespace Attestation.Der

/-- A value. -/
inductive Value where
  | boolean (b : Bool)
  /-- An integer, by its content in two's complement. -/
  | integer (content : Bytes)
  | enumerated (n : Nat)
  | octets (b : Bytes)
  | sequence (vs : List Value)
  | set (vs : List Value)
  /-- An element of another class or of no universal type, undecoded. -/
  | tagged (number : Nat) (content : Bytes)
  /-- A value of another universal type. -/
  | other
  deriving Inhabited

namespace Value

/-! ## Contents -/

/-- A digit or a space. -/
def isNumeric (d : UInt8) : Bool :=
  (Time.digit? d).isSome || d == 0x20

/-- A character of ASCII that is no control character. -/
def isVisible (d : UInt8) : Bool :=
  0x20 ≤ d && d ≤ 0x7f

/-- A letter, a digit, a space or one of `'()+,-./:=?`. -/
def isPrintable (d : UInt8) : Bool :=
  (0x61 ≤ d && d ≤ 0x7a) || (0x41 ≤ d && d ≤ 0x5a) || isNumeric d || d == 0x3a || d == 0x3d ||
    d == 0x3f || (0x27 ≤ d && d ≤ 0x2f && d != 0x2a)

/-- A value of which only the form is checked. -/
def checked (ok : Bool) : Option Value :=
  if ok then some other else none

/-- The bytes are characters of ASCII. -/
def isAscii (b : Bytes) : Bool :=
  b.all (· < 0x80)

/-- The value of an element of a universal type other than sequences and sets. -/
def ofScalar (e : Element) : Option Value :=
  let b := e.content
  match e.number with
  | 1 => if b.length = 1 then some (boolean (b != [0])) else none
  | 2 => some (integer b)
  | 3 => checked (!b.isEmpty)
  | 4 => some (octets b)
  | 10 => if !e.constructed && b.toNat < 2 ^ 32 then some (enumerated b.toNat) else none
  | 12 => checked b.toText?.isSome
  | 7 | 20 | 21 | 22 | 25 | 27 => checked (isAscii b)
  | 18 => checked (b.all isNumeric)
  | 19 => checked (b.all isPrintable)
  | 23 => checked (b.all isVisible && (Time.ofUtc? b).isSome)
  | 24 => checked (b.all isVisible && (Time.ofGeneralized? b).isSome)
  | 26 => checked (b.all isVisible)
  | 0 | 5 | 6 | 13 | 28 | 30 => some other
  | number => some (tagged number b)

/-- The value of an element by the basic rules; what is in it nests less than `depth` deep. -/
def ofElement : (depth : Nat) → Element → Option Value
  | 0, _ => none
  | depth + 1, e =>
    if e.tagClass ≠ .universal then some (tagged e.number e.content)
    else if e.number = TagNumber.sequence ∨ e.number = TagNumber.set then
      if e.constructed then do
        let es ← Reader.all Element.readBasic e.content.length e.content
        let vs ← es.mapM (ofElement depth)
        return if e.number = TagNumber.set then set vs else sequence vs
      else none
    else ofScalar e

/-! ## The distinguished rules -/

/-- A text consists of elements only by the basic rules. -/
def isTextNumber (number : Nat) : Bool :=
  number == 7 || number == 12 || (18 ≤ number && number ≤ 22) || (25 ≤ number && number ≤ 28) ||
    number == 30

/-- An element of a universal type keeps to the distinguished rules, as far as they are checked. -/
def isDistinguished (e : Element) : Bool :=
  match e.number with
  | 1 => e.content == [0x00] || e.content == [0xff]
  | 2 => isShortestInteger e.content
  | 3 => !e.constructed && (Element.bits? e.content).isSome
  | 23 | 24 => e.content.getLast? == some Time.zulu
  | number => !(isTextNumber number && e.constructed)

/-- How deep values may nest. -/
def maxDepth : Nat := 50

/-- The value of an element that keeps to the distinguished rules. -/
def ofDistinguished? (e : Element) : Option Value :=
  if e.tagClass ≠ .universal ∨ isDistinguished e then ofElement maxDepth e else none

/-- Takes a value. -/
def read : Reader Value := fun b => do
  let (e, b) ← Element.read b
  return (← ofDistinguished? e, b)

/-- Takes a value of the universal type with the given number, whatever the class of its tag. -/
def readNumbered (number : Nat) : Reader Value := fun b => do
  let (e, b) ← Element.readNumbered number b
  return (← ofDistinguished? { e with tagClass := .universal }, b)

/-! ## Numbers -/

/-- The content is a negative integer in two's complement. -/
def isNegative (b : Bytes) : Bool :=
  b.head?.any (0x80 ≤ ·)

/-- The integer of 64 bits that a value is. A number from 2 ^ 63 to below 2 ^ 64 counts modulo
2 ^ 64. -/
def toInt64? : Value → Option Int
  | integer b =>
    if isNegative b then
      if b.length ≤ 8 then some (b.toNat - 256 ^ b.length) else none
    else if b.toNat < 2 ^ 64 then some (Int.bmod b.toNat (2 ^ 64)) else none
  | _ => none

/-- The number below 2 ^ 32 that a value is. -/
def toWord32? : Value → Option Nat
  | integer b => if isNegative b ∨ 2 ^ 32 ≤ b.toNat then none else some b.toNat
  | enumerated n => some n
  | _ => none

end Value

end Attestation.Der
