import Attestation.AuthenticatorData
import Attestation.Cbor.Writer
import Attestation.Statement

/-!
# Attestation objects

What an authenticator answers to a registration: authenticator data and a statement about them. Its
format is the one of the statement, so that the two cannot disagree; `AttestationObject.ofParts`
refuses another name. `AttestationObject.decode` reads the CBOR map of an object and gives back the
very bytes of the authenticator data beside it, since these are what is signed.
-/

namespace Attestation

open Cbor (Value Entries)

/-- Authenticator data and a statement about them. -/
structure AttestationObject where
  authData : AuthenticatorData
  statement : Statement

namespace AttestationObject

/-- The name of the format. -/
def format (o : AttestationObject) : String :=
  o.statement.format.name

/-- The object of the parts, when the name is the one of the statement's format. -/
def ofParts (name : String) (authData : AuthenticatorData) (statement : Statement) :
    Result AttestationObject :=
  if name = statement.format.name then .ok ⟨authData, statement⟩
  else .error (.unsupportedFormat (.mismatch name statement.format))

/-! ## Decoding -/

/-- The fields of the map of an object, as far as they are found. -/
structure Fields where
  format : Option String := none
  authData : Option Bytes := none
  statement : Option Value := none

/-- The fields after one more entry: a later one replaces an earlier one, and entries of another
type are ignored. -/
def Fields.add (fields : Fields) : Value × Value → Fields
  | (.text "fmt", .text name) => { fields with format := some name }
  | (.text "authData", .bytes b) => { fields with authData := some b }
  | (.text "attStmt", v) => { fields with statement := some v }
  | _ => fields

/-- The fields of the entries of a map. -/
def Fields.ofEntries (entries : Entries) : Fields :=
  entries.foldl Fields.add {}

/-- The object of the fields, and the bytes of its authenticator data. -/
def ofFields (fields : Fields) : Result (AttestationObject × Bytes) :=
  match fields with
  | ⟨none, _, _⟩ => .error (.malformedInput (.objectLacks "fmt"))
  | ⟨_, none, _⟩ => .error (.malformedInput (.objectLacks "authData"))
  | ⟨_, _, none⟩ => .error (.missingStatement (.field "attStmt"))
  | ⟨some name, some raw, some item⟩ => do
    let statement ← Statement.ofCbor name item
    let authData ← AuthenticatorData.parse raw
    let object ← ofParts name authData statement
    return (object, raw)

/-- The object that the bytes encode, and the bytes of its authenticator data. What follows the
object is ignored. -/
def decode (b : Bytes) : Result (AttestationObject × Bytes) :=
  match Value.read b with
  | none => .error (.malformedInput .objectEncoding)
  | some (.map entries, _) => ofFields (Fields.ofEntries entries)
  | some _ => .error (.malformedInput .objectShape)

/-! ## Encoding -/

/-- The map of a statement and the bytes of authenticator data. -/
def toCbor (statement : Statement) (authData : Bytes) : Value :=
  .map [(.text "fmt", .text statement.format.name), (.text "attStmt", statement.toCbor),
    (.text "authData", .bytes authData)]

/-- The bytes of an object with the given statement and bytes of authenticator data. -/
def encode (statement : Statement) (authData : Bytes) : Bytes :=
  (toCbor statement authData).encode

end AttestationObject

end Attestation
