import Attestation.Cbor.Value
import Attestation.Reader

/-!
# Reading an item

`Value.read` takes one item from the front of a byte string. Heads need not be the shortest, strings
may come in segments, and arrays and maps may be closed by a break; arrays, maps and tags nest at
most `Value.maxDepth` deep. A bignum tag on a byte string of at most sixteen bytes is the integer
that it denotes, when that needs no more than 64 bits and a sign.
-/

namespace Attestation.Cbor

/-- What the first three bits of an item say. -/
inductive Major where
  | unsigned
  | negative
  | bytes
  | text
  | array
  | map
  | tag
  | other
  deriving DecidableEq, Repr

/-- The major type with the given number; numbers from 7 on are the last one. -/
def Major.ofBits : Nat → Major
  | 0 => unsigned
  | 1 => negative
  | 2 => bytes
  | 3 => text
  | 4 => array
  | 5 => map
  | 6 => tag
  | _ => other

/-- The number after the major type. -/
inductive Argument where
  /-- A number below 24, in the same byte. -/
  | direct (n : Nat)
  /-- A number in the next 1, 2, 4 or 8 bytes. -/
  | following (width n : Nat)
  /-- No number: segments or items follow up to a break, or this is the break. -/
  | indefinite
  deriving DecidableEq, Repr

/-- The number, if there is one. -/
def Argument.value? : Argument → Option Nat
  | direct n => some n
  | following _ n => some n
  | indefinite => none

/-- The head of an item. -/
structure Head where
  major : Major
  argument : Argument
  deriving DecidableEq, Repr

/-- Takes a number of the given width. -/
def Argument.readFollowing (width : Nat) : Reader Argument := fun b => do
  let (n, b) ← Reader.number width b
  return (following width n, b)

/-- Takes what follows the first byte of a head, whose last five bits are given. -/
def Argument.read : (minor : Nat) → Reader Argument
  | 24 => readFollowing 1
  | 25 => readFollowing 2
  | 26 => readFollowing 4
  | 27 => readFollowing 8
  -- 28 to 30 are not assigned.
  | 28 => fun _ => none
  | 29 => fun _ => none
  | 30 => fun _ => none
  | 31 => fun b => some (indefinite, b)
  | n => fun b => some (direct n, b)

/-- Takes the head of an item. -/
def Head.read : Reader Head := fun b => do
  let (first, b) ← Reader.byte b
  let (argument, b) ← Argument.read (first.toNat % 32) b
  return (⟨Major.ofBits (first.toNat / 32), argument⟩, b)

/-- The byte that closes an indefinite string, array or map. -/
def breakByte : UInt8 := 0xff

/-- The bytes after the break that comes next, if one does. -/
def afterBreak? : Bytes → Option Bytes
  | d :: b => if d = breakByte then some b else none
  | [] => none

/-- The segments of an indefinite string of the given major type, up to the break that closes the
outermost of the `opened` levels. A segment is a string of the same type; an indefinite one opens a
level. -/
def segments (major : Major) : (bound opened : Nat) → Reader (List Bytes)
  | 0, _, _ => none
  | bound + 1, opened, b => do
    let (head, rest) ← Head.read b
    if head = ⟨.other, .indefinite⟩ then
      if opened ≤ 1 then some ([], rest) else segments major bound (opened - 1) rest
    else if head.major = major then
      match head.argument.value? with
      | none => segments major bound (opened + 1) rest
      | some n => do
        let (front, rest) ← rest.splitAt? n
        let (more, rest) ← segments major bound opened rest
        return (front :: more, rest)
    else none

/-- The strings that a head of the given major type announces: the one of the given length, or the
segments of an indefinite one. -/
def strings (major : Major) (argument : Argument) : Reader (List Bytes) := fun b =>
  match argument.value? with
  | some n => (b.splitAt? n).map fun (front, rest) => ([front], rest)
  | none => segments major b.length 1 b

/-- The items that a head of an array or a map announces: as many as its number says, or up to the
break. -/
def items {α : Type} (read : Reader α) (argument : Argument) : Reader (List α) := fun b =>
  match argument.value? with
  | some n => Reader.replicate read n b
  | none => Reader.upTo afterBreak? read b.length b

/-- What a major type of its own leaves: truth values, null, and floating-point numbers. -/
def simple? : Argument → Option Value
  | .direct n | .following 1 n =>
    match n with
    | 20 => some (.bool false)
    | 21 => some (.bool true)
    | 22 => some .null
    | 23 => some .null
    | _ => none
  | .following 2 n => some (.real (Real.widen 5 10 n))
  | .following 4 n => some (.real (Real.widen 8 23 n))
  | .following 8 n => some (.real (UInt64.ofNat n))
  | _ => none

namespace Value

/-- The number of a bignum tag for a magnitude from 0 on. -/
def bignumTag : UInt64 := 2

/-- The number of a bignum tag for a magnitude counted down from -1. -/
def negativeBignumTag : UInt64 := 3

/-- The greatest magnitude that a negative bignum may have. -/
def maxNegativeMagnitude : Nat := 2 ^ 127 - 1

/-- The content of a bignum tag, as an integer if that needs no more than 64 bits and a sign, else
as the tag on the shortest byte string. -/
def ofBignum (number : UInt64) (content : Bytes) : Option Value :=
  let magnitude := content.toNat
  if magnitude < 2 ^ 64 then
    if number = bignumTag then some (unsigned (UInt64.ofNat magnitude))
    else some (negative (UInt64.ofNat magnitude))
  else if number = negativeBignumTag ∧ maxNegativeMagnitude < magnitude then none
  else some (tag number (bytes content.trimZeros))

/-- Takes the byte string of at most sixteen bytes that makes a bignum tag an integer, when one
follows. -/
def bignumContent? (b : Bytes) : Option (Reader Bytes) :=
  match Head.read b with
  | some (⟨.bytes, argument⟩, _) =>
    argument.value?.bind fun n =>
      if n ≤ 16 then some fun b => do
        let (_, rest) ← Head.read b
        rest.splitAt? n
      else none
  | _ => none

/-- Takes what follows a tag: a bignum that is an integer, or an item read by `inner`. -/
def readTagged (inner : Option (Reader Value)) (number : UInt64) : Reader Value := fun b =>
  match if number = bignumTag ∨ number = negativeBignumTag then bignumContent? b else none with
  | some content => do
    let (magnitude, b) ← content b
    return (← ofBignum number magnitude, b)
  | none => do
    let inner ← inner
    let (v, b) ← inner b
    return (tag number v, b)

/-- Takes what the head of an item announces; its parts are read by `inner`. -/
def readContent (inner : Option (Reader Value)) (head : Head) : Reader Value := fun b =>
  match head.major with
  | .unsigned => do
    let n ← head.argument.value?
    return (unsigned (UInt64.ofNat n), b)
  | .negative => do
    let n ← head.argument.value?
    return (negative (UInt64.ofNat n), b)
  | .bytes => do
    let (parts, b) ← strings .bytes head.argument b
    return (bytes parts.flatten, b)
  | .text => do
    let (parts, b) ← strings .text head.argument b
    let texts ← parts.mapM Bytes.toText?
    return (text (String.join texts), b)
  | .array => do
    let inner ← inner
    let (vs, b) ← items inner head.argument b
    return (array vs, b)
  | .map => do
    let inner ← inner
    let (vs, b) ← items (Reader.pair inner inner) head.argument b
    return (map vs, b)
  | .tag => do
    let number ← head.argument.value?
    readTagged inner (UInt64.ofNat number) b
  | .other => do
    let v ← simple? head.argument
    return (v, b)

/-- Takes one item, whose parts are read by `inner`; without it, the item may have no parts. -/
def readWith (inner : Option (Reader Value)) : Reader Value := fun b => do
  let (head, b) ← Head.read b
  readContent inner head b

/-- Takes one item in which arrays, maps and tags nest at most `depth` deep. -/
def readAt : (depth : Nat) → Reader Value
  | 0 => readWith none
  | depth + 1 => readWith (some (readAt depth))

/-- How deep arrays, maps and tags may nest. -/
def maxDepth : Nat := 256

/-- Takes one item. -/
def read : Reader Value := readAt maxDepth

end Value

end Attestation.Cbor
