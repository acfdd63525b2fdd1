import Attestation.Cbor.Reader
import Attestation.CredentialKey

/-!
# Authenticator data

The structure that an authenticator signs: the hash of the relying party's identifier, flags, a
signature counter, and, as two flags tell, the attested credential and extension outputs.
`AuthenticatorData.parse` decodes it. The credential key and the extension outputs are CBOR items,
so that where a section ends is known only by decoding it.
-/

namespace Attestation

open Cbor (Value)

/-- The credential that a registration creates. -/
structure AttestedCredential where
  /-- The identifier of the authenticator's model: sixteen bytes. -/
  aaguid : Bytes
  id : Bytes
  key : CredentialKey
  deriving DecidableEq, Repr

/-- Decoded authenticator data. -/
structure AuthenticatorData where
  /-- The hash of the relying party's identifier: 32 bytes. -/
  rpIdHash : Bytes
  flags : UInt8
  signCount : UInt32
  credential : Option AttestedCredential
  /-- The extension outputs: a map. -/
  extensions : Option Value

namespace AuthenticatorData

/-! ## Flags -/

/-- The flag of a user who was present. -/
def userPresentFlag : UInt8 := 0x01

/-- The flag of a user who was verified. -/
def userVerifiedFlag : UInt8 := 0x04

/-- The flag of an attested credential. -/
def credentialFlag : UInt8 := 0x40

/-- The flag of extension outputs. -/
def extensionsFlag : UInt8 := 0x80

/-- The flag is set. -/
def hasFlag (flags flag : UInt8) : Bool :=
  flags &&& flag != 0

/-- A user was present. -/
def userPresent (d : AuthenticatorData) : Bool :=
  hasFlag d.flags userPresentFlag

/-- The user was verified. -/
def userVerified (d : AuthenticatorData) : Bool :=
  hasFlag d.flags userVerifiedFlag

/-! ## Decoding -/

/-- The length of the hash of the relying party's identifier. -/
def rpIdHashLength : Nat := 32

/-- The length of the identifier of an authenticator's model. -/
def aaguidLength : Nat := 16

/-- The part that is always there: hash, flags and counter. -/
structure Header where
  rpIdHash : Bytes
  flags : UInt8
  signCount : UInt32

/-- Takes the part that is always there. -/
def Header.read : Reader Header := fun b => do
  let (rpIdHash, b) ← b.splitAt? rpIdHashLength
  let (flags, b) ← Reader.byte b
  let (count, b) ← Reader.number 4 b
  return (⟨rpIdHash, flags, UInt32.ofNat count⟩, b)

/-- Takes the identifier of the model and the length of the credential identifier. -/
def readModel : Reader (Bytes × Nat) := fun b => do
  let (aaguid, b) ← b.splitAt? aaguidLength
  let (length, b) ← Reader.number 2 b
  return ((aaguid, length), b)

/-- Takes the attested credential. -/
def readCredential (b : Bytes) : Result (AttestedCredential × Bytes) :=
  match readModel b with
  | none => .error (.malformedInput .credentialLength)
  | some ((aaguid, length), b) =>
    match b.splitAt? length with
    | none => .error (.malformedInput (.credentialIdLength length))
    | some (id, b) =>
      match Value.read b with
      | none => .error (.malformedInput .keyEncoding)
      | some (item, b) => do
        let key ← CredentialKey.ofCbor item
        return (⟨aaguid, id, key⟩, b)

/-- Takes the extension outputs. -/
def readExtensions (b : Bytes) : Result (Value × Bytes) :=
  match Value.read b with
  | none => .error (.malformedInput .extensionsEncoding)
  | some (.map entries, b) => .ok (.map entries, b)
  | some _ => .error (.malformedInput .extensionsShape)

/-- Takes a section when its flag is set. -/
def readSection {α : Type} (present : Bool) (read : Bytes → Result (α × Bytes)) (b : Bytes) :
    Result (Option α × Bytes) :=
  if present then do
    let (x, b) ← read b
    return (some x, b)
  else .ok (none, b)

/-- The authenticator data that the bytes encode. Nothing may follow it. -/
def parse (b : Bytes) : Result AuthenticatorData :=
  match Header.read b with
  | none => .error (.malformedInput (.headerLength b.length))
  | some (header, b) => do
    let (credential, b) ← readSection (hasFlag header.flags credentialFlag) readCredential b
    let (extensions, b) ← readSection (hasFlag header.flags extensionsFlag) readExtensions b
    if b = [] then
      return ⟨header.rpIdHash, header.flags, header.signCount, credential, extensions⟩
    else .error (.malformedInput (.trailing b.length "authenticator data"))

/-- The attested credential, which every format needs. -/
def requireCredential (d : AuthenticatorData) : Result AttestedCredential :=
  match d.credential with
  | some credential => .ok credential
  | none => .error (.authenticatorData .noCredential)

/-- The extension outputs are both absent or the same item. -/
def sameExtensions : Option Value → Option Value → Bool
  | none, none => true
  | some v, some w => v.same w
  | _, _ => false

/-- The same authenticator data, with floating-point numbers in extension outputs compared as
numbers. -/
def same (d e : AuthenticatorData) : Bool :=
  d.rpIdHash == e.rpIdHash && d.flags == e.flags && d.signCount == e.signCount &&
    d.credential == e.credential && sameExtensions d.extensions e.extensions

end AuthenticatorData

end Attestation
