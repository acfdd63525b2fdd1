import Attestation.Bytes

/-!
# Readers

A reader takes a value from the front of a byte string and gives back the bytes after it, or fails.
The loops run a reader a given number of times, or while there is input; the second carries a bound
on its number of steps, for which the length of the input is enough when each step reads a byte.
-/

namespace Attestation

/-- Takes a value from the front of a byte string and leaves the bytes after it. -/
abbrev Reader (α : Type) := Bytes → Option (α × Bytes)

namespace Reader

/-- The first byte. -/
def byte : Reader UInt8
  | [] => none
  | d :: rest => some (d, rest)

/-- A big-endian number of `n` bytes. -/
def number (n : Nat) : Reader Nat := fun b =>
  (b.splitAt? n).map fun (front, rest) => (front.toNat, rest)

/-- One value and then another. -/
def pair {α β : Type} (first : Reader α) (second : Reader β) : Reader (α × β) := fun b => do
  let (x, b) ← first b
  let (y, b) ← second b
  return ((x, y), b)

/-- As many values as told. -/
def replicate {α : Type} (read : Reader α) : (count : Nat) → Reader (List α)
  | 0, b => some ([], b)
  | count + 1, b => do
    let (x, b) ← read b
    let (xs, b) ← replicate read count b
    return (x :: xs, b)

/-- Values up to a mark, which is taken too; `mark` gives the bytes after it. -/
def upTo {α : Type} (mark : Bytes → Option Bytes) (read : Reader α) :
    (bound : Nat) → Reader (List α)
  | 0, _ => none
  | bound + 1, b =>
    match mark b with
    | some rest => some ([], rest)
    | none => do
      let (x, b) ← read b
      let (xs, b) ← upTo mark read bound b
      return (x :: xs, b)

/-- Values as long as they can be taken, and the bytes from the first failure on. -/
def many {α : Type} (read : Reader α) : (bound : Nat) → Bytes → List α × Bytes
  | 0, b => ([], b)
  | bound + 1, b =>
    match read b with
    | some (x, rest) =>
      let (xs, rest) := many read bound rest
      (x :: xs, rest)
    | none => ([], b)

/-- Values up to the end of the input, which has to be reached at a boundary. -/
def all {α : Type} (read : Reader α) : (bound : Nat) → Bytes → Option (List α)
  | _, [] => some []
  | 0, _ :: _ => none
  | bound + 1, d :: b => do
    let (x, rest) ← read (d :: b)
    let xs ← all read bound rest
    return x :: xs

end Reader

end Attestation
