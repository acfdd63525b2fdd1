import Attestation.AttestationObject

/-!
# Registrations

An attestation object with the bytes of its authenticator data and the hash of the client data. The
type holds what makes these three one registration: the hash has 32 bytes, and the bytes decode to
the authenticator data of the object. `Registration.make` is the way to one.
-/

namespace Attestation

/-- What a relying party verifies when a credential is registered. -/
structure Registration where
  object : AttestationObject
  /-- The authenticator data as the authenticator signed them. -/
  authenticatorBytes : Bytes
  clientDataHash : Bytes
  length_clientDataHash : clientDataHash.length = 32
  /-- The bytes decode to the authenticator data of the object. -/
  decodes : ∃ d, AuthenticatorData.parse authenticatorBytes = .ok d ∧ d.same object.authData = true

namespace Registration

/-- The registration of the parts. -/
def make (object : AttestationObject) (authenticatorBytes clientDataHash : Bytes) :
    Result Registration :=
  if hl : clientDataHash.length = 32 then
    match hp : AuthenticatorData.parse authenticatorBytes with
    | .error e => .error e
    | .ok d =>
      if hs : d.same object.authData = true then
        .ok ⟨object, authenticatorBytes, clientDataHash, hl, d, hp, hs⟩
      else .error (.authenticatorData .differentBytes)
  else .error (.malformedInput (.hashLength clientDataHash.length))

/-- The registration of an encoded attestation object. -/
def ofObjectBytes (object clientDataHash : Bytes) : Result Registration := do
  let (object, authenticatorBytes) ← AttestationObject.decode object
  make object authenticatorBytes clientDataHash

/-- The name of the format. -/
def format (r : Registration) : String :=
  r.object.format

/-- The statement. -/
def statement (r : Registration) : Statement :=
  r.object.statement

/-- The bytes that most formats sign: the authenticator data and the hash of the client data. -/
def signedData (r : Registration) : Bytes :=
  r.authenticatorBytes ++ r.clientDataHash

/-- The attested credential, which every format needs. -/
def credential (r : Registration) : Result AttestedCredential :=
  r.object.authData.requireCredential

end Registration

end Attestation
