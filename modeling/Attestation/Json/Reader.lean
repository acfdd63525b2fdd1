import Attestation.Json.Value
import Attestation.Reader

/-!
# Reading JSON

`Value.parse?` reads a whole text. White space may stand around every part, and arrays and objects
may nest as deep as they like: each of them takes a byte, so that the length of the text bounds the
depth. Strings are checked only as far as to find their end and their escapes, so that they need not
be UTF-8.
-/

namespace Attestation.Json

/-! ## Characters -/

/-- The character around strings. -/
def quote : UInt8 := 0x22

/-- The character between the parts of arrays and objects. -/
def comma : UInt8 := 0x2c

/-- The character between name and value of a member. -/
def colon : UInt8 := 0x3a

/-- The characters around arrays. -/
def arrayMarks : UInt8 × UInt8 := (0x5b, 0x5d)

/-- The characters around objects. -/
def objectMarks : UInt8 × UInt8 := (0x7b, 0x7d)

/-- Space, tab, line feed or carriage return. -/
def isBlank (d : UInt8) : Bool :=
  d == 0x20 || d == 0x09 || d == 0x0a || d == 0x0d

/-- What follows the white space. -/
def skipBlanks (b : Bytes) : Bytes :=
  b.dropWhile isBlank

/-- Takes the given character, after white space. -/
def readMark (mark : UInt8) (b : Bytes) : Option Bytes :=
  match skipBlanks b with
  | d :: rest => if d = mark then some rest else none
  | [] => none

/-! ## Strings and numbers -/

/-- The bytes up to the quote that ends a string, and the bytes after it. A quote after a backslash
that is not escaped itself does not end the string. -/
def splitString : (afterBackslash : Bool) → Reader Bytes
  | _, [] => none
  | afterBackslash, d :: rest =>
    if d = quote ∧ ¬ afterBackslash then some ([], rest)
    else
      (splitString (d == backslash && !afterBackslash) rest).map fun (raw, rest) => (d :: raw, rest)

/-- Takes a string from behind its first quote, as it is written. -/
def readString : Reader Bytes := fun b => do
  let (raw, b) ← splitString false b
  if (pieces? raw).isSome then some (raw, b) else none

/-- Takes digits, as long as there are some. -/
def spanDigits : Bytes → List Nat × Bytes
  | [] => ([], [])
  | d :: b =>
    match digit? d with
    | some n =>
      let (digits, b) := spanDigits b
      (n :: digits, b)
    | none => ([], d :: b)

/-- Takes digits, of which there must be one. -/
def readDigits : Reader (List Nat) := fun b =>
  match spanDigits b with
  | ([], _) => none
  | (digits, b) => some (digits, b)

/-- Takes the digits before the point; only a zero alone may start with zero. -/
def readWhole : Reader (List Nat)
  | [] => none
  | d :: b => if d = 0x30 then some ([0], b) else readDigits (d :: b)

/-- Takes the fraction, if there is one. -/
def readFraction : Reader (List Nat)
  | [] => some ([], [])
  | d :: b => if d = 0x2e then readDigits b else some ([], d :: b)

/-- Takes a minus sign, if there is one. -/
def readMinus : Bytes → Bool × Bytes
  | [] => (false, [])
  | d :: b => if d = 0x2d then (true, b) else (false, d :: b)

/-- Takes the sign of an exponent, if there is one. -/
def readSign : Bytes → Bool × Bytes
  | [] => (false, [])
  | d :: b => if d = 0x2b then (false, b) else readMinus (d :: b)

/-- Takes the exponent with its sign, if there is one. -/
def readExponent : Reader (Bool × List Nat)
  | [] => some ((false, []), [])
  | d :: b =>
    if d = 0x65 ∨ d = 0x45 then
      let (negative, b) := readSign b
      (readDigits b).map fun (digits, b) => ((negative, digits), b)
    else some ((false, []), d :: b)

/-- Takes a number. -/
def readNumber : Reader Number := fun b => do
  let (negative, b) := readMinus b
  let (whole, b) ← readWhole b
  let (fraction, b) ← readFraction b
  let ((negativeExponent, exponent), b) ← readExponent b
  return (⟨negative, whole, fraction, negativeExponent, exponent⟩, b)

/-! ## Arrays and objects -/

/-- Takes parts with commas between them, up to the closing character. -/
def readParts {α : Type} (close : UInt8) (read : Reader α) : (bound : Nat) → Reader (List α)
  | 0, _ => none
  | bound + 1, b => do
    let (x, b) ← read b
    match readMark close b with
    | some b => return ([x], b)
    | none => do
      let b ← readMark comma b
      let (xs, b) ← readParts close read bound b
      return (x :: xs, b)

/-- Takes the parts of an array or an object from behind its first character. -/
def readList {α : Type} (close : UInt8) (read : Reader α) : Reader (List α) := fun b =>
  match readMark close b with
  | some b => some ([], b)
  | none => readParts close read b.length b

/-- Takes a member of an object. -/
def readMember {α : Type} (read : Reader α) : Reader (Bytes × α) := fun b => do
  let b ← readMark quote b
  let (raw, b) ← readString b
  let b ← readMark colon b
  let (x, b) ← read b
  return ((raw, x), b)

/-! ## Values -/

/-- Takes the given word. -/
def readWord (word : String) (b : Bytes) : Option Bytes :=
  let bytes := Bytes.ofText word
  if bytes <+: b then some (b.drop bytes.length) else none

namespace Value

/-- Takes a value that is no array and no object. -/
def readScalar : Reader Value := fun b =>
  match b with
  | [] => none
  | d :: rest =>
    if d = quote then (readString rest).map fun (raw, b) => (string raw, b)
    -- The words are told apart by their first letters.
    else if d = 0x6e then (readWord "null" b).map fun b => (null, b)
    else if d = 0x74 then (readWord "true" b).map fun b => (bool true, b)
    else if d = 0x66 then (readWord "false" b).map fun b => (bool false, b)
    else (readNumber b).map fun (x, b) => (number x, b)

/-- Takes a value. The bound on the depth of arrays and objects is never reached if it is the length
of the input. -/
def readWithin : (bound : Nat) → Reader Value
  | 0, b => readScalar (skipBlanks b)
  | bound + 1, b =>
    match readMark arrayMarks.1 b with
    | some b => do
      let (vs, b) ← readList arrayMarks.2 (readWithin bound) b
      return (array vs, b)
    | none =>
      match readMark objectMarks.1 b with
      | some b => do
        let (members, b) ← readList objectMarks.2 (readMember (readWithin bound)) b
        return (object members, b)
      | none => readScalar (skipBlanks b)

/-- Takes a value. -/
def read : Reader Value := fun b => readWithin b.length b

/-- The value that a text is. -/
def parse? (b : Bytes) : Option Value := do
  let (v, b) ← read b
  if skipBlanks b = [] then some v else none

end Value

end Attestation.Json
