import Attestation.Cbor.Value

/-!
# Attestation statements

A statement has the fields of its format. `Statement.ofCbor` decodes a CBOR map: of each field the
first entry counts, others are ignored, and the first field at fault in the order of the format is
the one reported. `Statement.toCbor` is the map of a statement.
-/

namespace Attestation

open Cbor (Value Entries signed64)

/-- A statement of the format `tpm`. -/
structure TpmStatement where
  version : String
  alg : Int
  certificates : Option (List Bytes)
  keyIdentifier : Option Bytes
  signature : Bytes
  certInfo : Option Bytes
  pubArea : Option Bytes
  deriving DecidableEq, Repr

/-- A statement of the format `packed`. -/
structure PackedStatement where
  alg : Int
  signature : Bytes
  certificates : Option (List Bytes)
  keyIdentifier : Option Bytes
  deriving DecidableEq, Repr

/-- A statement of the format `android-key`. -/
structure AndroidKeyStatement where
  alg : Int
  signature : Bytes
  certificates : List Bytes
  deriving DecidableEq, Repr

/-- A statement of the format `android-safetynet`. -/
structure SafetyNetStatement where
  version : String
  response : Bytes
  deriving DecidableEq, Repr

/-- A statement of the format `fido-u2f`. -/
structure FidoU2fStatement where
  signature : Bytes
  certificates : List Bytes
  deriving DecidableEq, Repr

/-- A statement of the format `apple`. -/
structure AppleStatement where
  certificates : List Bytes
  deriving DecidableEq, Repr

/-- An attestation statement. -/
inductive Statement where
  | tpm (s : TpmStatement)
  | packed (s : PackedStatement)
  | androidKey (s : AndroidKeyStatement)
  | androidSafetyNet (s : SafetyNetStatement)
  | fidoU2f (s : FidoU2fStatement)
  | apple (s : AppleStatement)
  | none
  deriving DecidableEq, Repr

namespace Statement

/-- The format of the statement. -/
def format : Statement → Format
  | tpm _ => .tpm
  | packed _ => .packed
  | androidKey _ => .androidKey
  | androidSafetyNet _ => .androidSafetyNet
  | fidoU2f _ => .fidoU2f
  | apple _ => .apple
  | none => .none

/-! ## Fields -/

/-- A field that has to be there. -/
def required {α : Type} (name : String) : Option α → Result α
  | some x => .ok x
  | Option.none => .error (.missingStatement (.field name))

/-- A byte string, if the field is there. -/
def bytes? (entries : Entries) (name : String) : Result (Option Bytes) :=
  match entries.atText? name with
  | Option.none => .ok Option.none
  | some (.bytes b) => .ok (some b)
  | some _ => .error (.malformedInput (.notBytes name))

/-- A byte string. -/
def bytes (entries : Entries) (name : String) : Result Bytes := do
  required name (← bytes? entries name)

/-- A text. -/
def text (entries : Entries) (name : String) : Result String :=
  match entries.atText? name with
  | Option.none => .error (.missingStatement (.field name))
  | some (.text s) => .ok s
  | some _ => .error (.malformedInput (.notText name))

/-- An integer. -/
def integer (entries : Entries) (name : String) : Result Int :=
  match entries.atText? name with
  | Option.none => .error (.missingStatement (.field name))
  | some v =>
    match v.toInt? with
    | some n => signed64 n
    | Option.none => .error (.malformedInput (.notInteger name))

/-- A certificate of a certificate list. -/
def certificate : Value → Result Bytes
  | .bytes der => .ok der
  | _ => .error (.malformedInput .certificateShape)

/-- The certificate list, if the field is there; it must not be empty. -/
def certificates? (entries : Entries) : Result (Option (List Bytes)) :=
  match entries.atText? "x5c" with
  | Option.none => .ok Option.none
  | some (.array []) => .error (.malformedInput .certificatesEmpty)
  | some (.array vs) => some <$> vs.mapM certificate
  | some _ => .error (.malformedInput .certificatesShape)

/-- The certificate list. -/
def certificates (entries : Entries) : Result (List Bytes) := do
  required "x5c" (← certificates? entries)

/-! ## Decoding -/

/-- The statement of the given format that the entries of a map describe. -/
def ofEntries (entries : Entries) : Format → Result Statement
  | .tpm => do
    let version ← text entries "ver"
    let alg ← integer entries "alg"
    let certificates ← certificates? entries
    let keyIdentifier ← bytes? entries "ecdaaKeyId"
    let signature ← bytes entries "sig"
    let certInfo ← bytes? entries "certInfo"
    let pubArea ← bytes? entries "pubArea"
    return tpm ⟨version, alg, certificates, keyIdentifier, signature, certInfo, pubArea⟩
  | .packed => do
    let alg ← integer entries "alg"
    let signature ← bytes entries "sig"
    let certificates ← certificates? entries
    let keyIdentifier ← bytes? entries "ecdaaKeyId"
    return packed ⟨alg, signature, certificates, keyIdentifier⟩
  | .androidKey => do
    let alg ← integer entries "alg"
    let signature ← bytes entries "sig"
    let certificates ← certificates entries
    return androidKey ⟨alg, signature, certificates⟩
  | .androidSafetyNet => do
    let version ← text entries "ver"
    let response ← bytes entries "response"
    return androidSafetyNet ⟨version, response⟩
  | .fidoU2f => do
    let signature ← bytes entries "sig"
    let certificates ← certificates entries
    return fidoU2f ⟨signature, certificates⟩
  | .apple => do
    let certificates ← certificates entries
    return apple ⟨certificates⟩
  | .none =>
    if entries = [] then .ok none else .error (.structuralMismatch .noneNotEmpty)

/-- The statement that an item describes under the name of a format. -/
def ofCbor (name : String) (v : Value) : Result Statement :=
  match Format.ofName? name with
  | Option.none => .error (.unsupportedFormat (.unknown name))
  | some format =>
    match v with
    | .map entries => ofEntries entries format
    | _ => .error (.malformedInput .statementShape)

/-! ## Encoding -/

/-- The entry of a field. -/
def entry (name : String) (v : Value) : Value × Value :=
  (.text name, v)

/-- The entry of a field that may be absent. -/
def optionalEntry {α : Type} (name : String) (item : α → Value) : Option α → Entries
  | some x => [entry name (item x)]
  | Option.none => []

/-- A certificate list as an item. -/
def certificateItems (certificates : List Bytes) : Value :=
  .array (certificates.map Value.bytes)

/-- The entries of the map of a statement. -/
def toEntries : Statement → Entries
  | tpm s => entry "ver" (.text s.version) :: entry "alg" (.ofInt s.alg) ::
    (optionalEntry "x5c" certificateItems s.certificates ++
      optionalEntry "ecdaaKeyId" .bytes s.keyIdentifier ++
      entry "sig" (.bytes s.signature) ::
      (optionalEntry "certInfo" .bytes s.certInfo ++ optionalEntry "pubArea" .bytes s.pubArea))
  | packed s => entry "alg" (.ofInt s.alg) :: entry "sig" (.bytes s.signature) ::
    (optionalEntry "x5c" certificateItems s.certificates ++
      optionalEntry "ecdaaKeyId" .bytes s.keyIdentifier)
  | androidKey s => [entry "alg" (.ofInt s.alg), entry "sig" (.bytes s.signature),
    entry "x5c" (certificateItems s.certificates)]
  | androidSafetyNet s => [entry "ver" (.text s.version), entry "response" (.bytes s.response)]
  | fidoU2f s => [entry "sig" (.bytes s.signature), entry "x5c" (certificateItems s.certificates)]
  | apple s => [entry "x5c" (certificateItems s.certificates)]
  | none => []

/-- The map of a statement. -/
def toCbor (s : Statement) : Value :=
  .map s.toEntries

end Statement

end Attestation
