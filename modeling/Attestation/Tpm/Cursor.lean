import Attestation.Error

/-!
# Reading TPM structures

A TPM marshals its structures as big-endian words and as byte strings with a length of 16 bits
before them. A `Cursor` stands in such a structure; reading moves it forward, also when what follows
fails later, and an error names the offset where the input ended.
-/

namespace Attestation.Tpm

/-- A place in a structure: how many bytes lie before it, and the bytes after it. -/
structure Cursor where
  offset : Nat
  rest : Bytes
  deriving DecidableEq, Repr

/-- The beginning of a structure. -/
def Cursor.start (b : Bytes) : Cursor :=
  ⟨0, b⟩

/-- A step that reads at a cursor and moves it. -/
abbrev Read (α : Type) := EStateM Error Cursor α

namespace Read

/-- The next `n` bytes; `field` names them in errors. -/
def bytes (n : Nat) (field : String) : Read Bytes := fun c =>
  match c.rest.splitAt? n with
  | some (front, rest) => .ok front ⟨c.offset + n, rest⟩
  | none => .error (.malformedInput (.truncated field c.offset)) c

/-- A byte. -/
def word8 (field : String) : Read UInt8 :=
  return UInt8.ofNat (← bytes 1 field).toNat

/-- A word of 16 bits. -/
def word16 (field : String) : Read UInt16 :=
  return UInt16.ofNat (← bytes 2 field).toNat

/-- A word of 32 bits. -/
def word32 (field : String) : Read UInt32 :=
  return UInt32.ofNat (← bytes 4 field).toNat

/-- A word of 64 bits. -/
def word64 (field : String) : Read UInt64 :=
  return UInt64.ofNat (← bytes 8 field).toNat

/-- A byte string after its length in 16 bits. -/
def sized (field : String) : Read Bytes := do
  let length ← word16 field
  bytes length.toNat field

/-- All the bytes that are left. -/
def remainder : Read Bytes := fun c =>
  .ok c.rest ⟨c.offset + c.rest.length, []⟩

/-- The end of the structure with the given name; bytes left over are refused. -/
def finish (structureName : String) : Read Unit := fun c =>
  if c.rest = [] then .ok () c
  else .error (.malformedInput (.trailing c.rest.length structureName)) c

/-- The result of a step at the beginning of a structure. -/
def parse {α : Type} (read : Read α) (b : Bytes) : Result α :=
  match read (.start b) with
  | .ok x _ => .ok x
  | .error e _ => .error e

end Read

/-- The bytes of a byte string with its length in 16 bits before it. -/
def sizedBytes (b : Bytes) : Bytes :=
  Bytes.ofNat 2 b.length ++ b

end Attestation.Tpm
