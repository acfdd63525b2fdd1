import Attestation.Reader

/-!
# Elements of the distinguished encoding

An element is a header and a content. The header tells the class and the number of the tag, whether
the content consists of elements, and how long the content is; lengths and numbers need not have
their shortest form. `Element.read` takes an element whose header gives the length. The basic rules
also allow a content without a length, which consists of elements up to an end mark;
`Element.readBasic` takes such elements too.

The functions that expect an element of a certain type go by the number of its tag alone, whatever
the class.
-/

namespace Attestation.Der

/-- The class of a tag. -/
inductive TagClass where
  | universal
  | application
  | contextSpecific
  | privateUse
  deriving DecidableEq, Repr

/-- The class with the given number; numbers from 3 on are the last one. -/
def TagClass.ofBits : Nat → TagClass
  | 0 => universal
  | 1 => application
  | 2 => contextSpecific
  | _ => privateUse

/-! ## Numbers of universal types -/

namespace TagNumber

/-- The end mark of a content without a length. -/
def endMark : Nat := 0

/-- Truth values. -/
def boolean : Nat := 1

/-- Integers. -/
def integer : Nat := 2

/-- Bit strings. -/
def bitString : Nat := 3

/-- Octet strings. -/
def octetString : Nat := 4

/-- Enumerations. -/
def enumerated : Nat := 10

/-- Texts in UTF-8. -/
def utf8Text : Nat := 12

/-- Sequences. -/
def sequence : Nat := 16

/-- Sets. -/
def set : Nat := 17

/-- Texts of digits and spaces. -/
def numericText : Nat := 18

/-- Texts of letters, digits and some punctuation. -/
def printableText : Nat := 19

/-- Texts of the international alphabet no. 5. -/
def ia5Text : Nat := 22

/-- Times with a year of two digits. -/
def utcTime : Nat := 23

/-- Times with a year of four digits. -/
def generalizedTime : Nat := 24

end TagNumber

/-! ## Headers -/

/-- How far the content of an element goes. -/
inductive Extent where
  | definite (length : Nat)
  /-- Up to an end mark. -/
  | indefinite
  deriving DecidableEq, Repr

/-- Lengths are counted in 64 bits. -/
def lengthLimit : Nat := 2 ^ 64

/-- The header of an element. -/
structure Header where
  tagClass : TagClass
  constructed : Bool
  number : Nat
  extent : Extent
  deriving DecidableEq, Repr

namespace Header

/-- How many bytes a number from 31 on may take. -/
def maxNumberLength : Nat := 5

/-- Takes a number in base 128, of which all bytes but the last have their highest bit set, after
the digits that make up `start`. Numbers are counted modulo 2 ^ 32. -/
def readNumber : (bound start : Nat) → Reader Nat
  | 0, _, _ => none
  | bound + 1, start, b => do
    let (digit, b) ← Reader.byte b
    let n := (start * 128 + digit.toNat % 128) % 2 ^ 32
    if digit < 0x80 then return (n, b) else readNumber bound n b

/-- Takes the length of a content, or the mark that there is none. -/
def readExtent : Reader Extent := fun b => do
  let (first, b) ← Reader.byte b
  if first < 0x80 then return (.definite first.toNat, b)
  else if first = 0x80 then return (.indefinite, b)
  -- This first byte is reserved.
  else if first = 0xff then none
  else
    let (length, b) ← Reader.number (first.toNat - 0x80) b
    if length < lengthLimit then return (.definite length, b) else none

/-- Takes a header. -/
def read : Reader Header := fun b => do
  let (first, b) ← Reader.byte b
  let low := first.toNat % 32
  let (number, b) ← if low = 31 then readNumber maxNumberLength 0 b else some (low, b)
  let (extent, b) ← readExtent b
  return (⟨.ofBits (first.toNat / 64), first.toNat / 32 % 2 == 1, number, extent⟩, b)

/-- Takes a header by the basic rules: only what consists of elements may come without a length. -/
def readBasic : Reader Header := fun b => do
  let (h, b) ← read b
  if h.extent = .indefinite ∧ ¬ h.constructed then none else some (h, b)

/-- The header of an end mark, of any class. -/
def isEndMark (h : Header) : Bool :=
  h.number == TagNumber.endMark && h.extent == .definite 0

/-- The bytes after the end mark that comes next, if one does. -/
def afterEndMark? (b : Bytes) : Option Bytes := do
  let (h, b) ← read b
  if h.isEndMark then some b else none

/-- Skips the content under a header, with its end mark. Contents without a length nest less than
`depth` deep. -/
def skip : (depth : Nat) → Header → Reader Unit
  | 0, _, _ => none
  | depth + 1, h, b =>
    match h.extent with
    | .definite length => (b.splitAt? length).map fun (_, b) => ((), b)
    | .indefinite => do
      let readPart : Reader Unit := fun b => do
        let (h, b) ← readBasic b
        skip depth h b
      let (_, b) ← Reader.upTo afterEndMark? readPart b.length b
      return ((), b)

/-- How deep contents without a length may nest. -/
def maxDepth : Nat := 50

/-- The length of an end mark. -/
def endMarkLength : Nat := 2

/-- Takes the content under a header, and its end mark. -/
def readContent (h : Header) : Reader Bytes := fun b => do
  let (_, rest) ← skip maxDepth h b
  let length := b.length - rest.length
  match h.extent with
  | .definite _ => return (b.take length, rest)
  | .indefinite => return (b.take (length - endMarkLength), rest)

end Header

/-! ## Elements -/

/-- An element with its content, undecoded. -/
structure Element where
  tagClass : TagClass
  constructed : Bool
  number : Nat
  content : Bytes
  deriving DecidableEq, Repr

namespace Element

/-- Takes an element whose header gives the length of its content. -/
def read : Reader Element := fun b => do
  let (h, b) ← Header.read b
  match h.extent with
  | .definite length => do
    let (content, b) ← b.splitAt? length
    return (⟨h.tagClass, h.constructed, h.number, content⟩, b)
  | .indefinite => none

/-- Takes an element by the basic rules. -/
def readBasic : Reader Element := fun b => do
  let (h, b) ← Header.readBasic b
  let (content, b) ← h.readContent b
  return (⟨h.tagClass, h.constructed, h.number, content⟩, b)

/-- Takes an element with the given number. -/
def readNumbered (number : Nat) : Reader Element := fun b => do
  let (e, b) ← read b
  if e.number = number then return (e, b) else none

/-- Takes an element with the given number that consists of elements, and gives its content. -/
def readConstructed (number : Nat) : Reader Bytes := fun b => do
  let (e, b) ← readNumbered number b
  if e.constructed then return (e.content, b) else none

/-- Takes an element with the given number that does not consist of elements, and gives its
content. -/
def readPrimitive (number : Nat) : Reader Bytes := fun b => do
  let (e, b) ← readNumbered number b
  if e.constructed then none else return (e.content, b)

/-- Takes a sequence, and gives its content. -/
def readSequence : Reader Bytes :=
  readConstructed TagNumber.sequence

/-- Takes a set, and gives its content. -/
def readSet : Reader Bytes :=
  readConstructed TagNumber.set

/-- Takes an object identifier, and gives its content. Any other element that does not consist of
elements is taken for one too. -/
def readObjectId : Reader Bytes := fun b => do
  let (e, b) ← read b
  if e.constructed then none else return (e.content, b)

/-- The bits after the first byte, which tells how many bits of the last one are unused; these must
be zero. -/
def bits? : Bytes → Option Bytes
  | [] => none
  | unused :: b =>
    match b.getLast? with
    | none => if unused = 0 then some [] else none
    | some last => if unused.toNat ≤ 7 ∧ last.toNat % 2 ^ unused.toNat = 0 then some b else none

/-- Takes a bit string, and gives its bytes. -/
def readBits : Reader Bytes := fun b => do
  let (content, b) ← readPrimitive TagNumber.bitString b
  return (← bits? content, b)

end Element

/-- The integer that a non-empty content writes in its shortest form. -/
def isShortestInteger : Bytes → Bool
  | [] => false
  | 0 :: d :: _ => 0x80 ≤ d
  | _ => true

end Attestation.Der
