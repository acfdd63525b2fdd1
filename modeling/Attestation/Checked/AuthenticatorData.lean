import Attestation.AuthenticatorData
import Attestation.Checked

/-!
# Decoding authenticator data by offsets

The sections are cut by offsets that are fixed or were read before. That the bytes reach as far is
checked once before a header, once before a credential and once before its identifier; the accesses
after each check rely on it.
-/

namespace Attestation.AuthenticatorData.Checked

open Cbor (Value)

/-- The length of the part that is always there. -/
def headerLength : Nat := rpIdHashLength + 1 + 4

/-- Takes the part that is always there. -/
def readHeader (b : Bytes) : CheckedResult (Header × Bytes) :=
  if b.length < headerLength then throw (.malformedInput (.headerLength b.length))
  else do
    let hash ← Checked.sliceTo b rpIdHashLength
    let rpIdHash ← Checked.copy rpIdHashLength hash
    let flags ← Checked.index b rpIdHashLength
    let count ← Checked.indices b (rpIdHashLength + 1) 4
    let rest ← Checked.sliceFrom b headerLength
    return (⟨rpIdHash, flags, UInt32.ofNat count.toNat⟩, rest)

/-- The identifier of a model in a slice, which has to have its length. -/
def modelOfSlice (b : Bytes) : CheckedResult Bytes :=
  if b.length = aaguidLength then return b
  else throw (.malformedInput (.custom "Failed to parse AAGUID"))

/-- Takes the identifier of the model and the length of the credential identifier. -/
def readModel (b : Bytes) : CheckedResult ((Bytes × Nat) × Bytes) :=
  if b.length < aaguidLength + 2 then throw (.malformedInput .credentialLength)
  else do
    let aaguid ← modelOfSlice (← Checked.sliceTo b aaguidLength)
    let digits ← Checked.indices b aaguidLength 2
    let rest ← Checked.sliceFrom b (aaguidLength + 2)
    return ((aaguid, digits.toNat), rest)

/-- Takes the identifier of the credential, of the given length. -/
def readId (length : Nat) (b : Bytes) : CheckedResult (Bytes × Bytes) :=
  if b.length < length then throw (.malformedInput (.credentialIdLength length))
  else do
    let id ← Checked.sliceTo b length
    let rest ← Checked.sliceFrom b length
    return (id, rest)

/-- Takes the attested credential. -/
def readCredential (b : Bytes) : CheckedResult (AttestedCredential × Bytes) := do
  let ((aaguid, length), b) ← readModel b
  let (id, b) ← readId length b
  match Value.read b with
  | none => throw (.malformedInput .keyEncoding)
  | some (item, b) => do
    let key ← Checked.ofResult (CredentialKey.ofCbor item)
    return (⟨aaguid, id, key⟩, b)

/-- Takes a section when its flag is set. -/
def readSection {α : Type} (present : Bool) (read : Bytes → CheckedResult (α × Bytes)) (b : Bytes) :
    CheckedResult (Option α × Bytes) :=
  if present then do
    let (x, b) ← read b
    return (some x, b)
  else return (none, b)

/-- The authenticator data that the bytes encode. Nothing may follow it. -/
def parse (b : Bytes) : CheckedResult AuthenticatorData := do
  let (header, b) ← readHeader b
  let (credential, b) ← readSection (hasFlag header.flags credentialFlag) readCredential b
  let (extensions, b) ←
    readSection (hasFlag header.flags extensionsFlag) (Checked.ofResult ∘ readExtensions) b
  if b = [] then
    return ⟨header.rpIdHash, header.flags, header.signCount, credential, extensions⟩
  else throw (.malformedInput (.trailing b.length "authenticator data"))

end Attestation.AuthenticatorData.Checked
