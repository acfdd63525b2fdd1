import Attestation.Cbor.Value

/-!
# Credential public keys

The public key of a credential as its COSE map gives it. `CredentialKey.ofCbor` decodes the map,
where the first entry of a label counts, and `CredentialKey.toCbor` is the map of a key.
-/

namespace Attestation

open Cbor (Value Entries signed64)

/-- The public key of a credential, with the algorithm it is meant for, if it names one. -/
inductive CredentialKey where
  | ec2 (alg : Option Int) (curve : Curve) (x y : Bytes)
  /-- An octet key pair; its curve is Ed25519. -/
  | okp (alg : Option Int) (x : Bytes)
  | rsa (alg : Option Int) (modulus exponent : Bytes)
  deriving DecidableEq, Repr

namespace CredentialKey

/-- The algorithm that the key is meant for, if it names one. -/
def alg : CredentialKey → Option Int
  | ec2 alg _ _ _ => alg
  | okp alg _ => alg
  | rsa alg _ _ => alg

/-! ## Labels and identifiers of the COSE registry -/

/-- The label of the key type. -/
def keyTypeLabel : Int := 1

/-- The label of the algorithm. -/
def algLabel : Int := 3

/-- The label of the curve, or of the modulus. -/
def firstLabel : Int := -1

/-- The label of the x-coordinate, or of the exponent. -/
def secondLabel : Int := -2

/-- The label of the y-coordinate. -/
def thirdLabel : Int := -3

/-- The key type of octet key pairs. -/
def okpType : Int := 1

/-- The key type of keys on a curve with two coordinates. -/
def ec2Type : Int := 2

/-- The key type of RSA keys. -/
def rsaType : Int := 3

/-- The curve Ed25519. -/
def ed25519Id : Int := 6

/-! ## Decoding -/

/-- The key type of the map. -/
def readKeyType (entries : Entries) : Result Int :=
  match (entries.atInt? keyTypeLabel).bind Value.toInt? with
  | some n => signed64 n
  | none => .error (.malformedInput .keyTypeMissing)

/-- The algorithm of the map, if it has one. -/
def readAlg (entries : Entries) : Result (Option Int) :=
  match entries.atInt? algLabel with
  | none => .ok none
  | some v =>
    match v.toInt? with
    | some n => (signed64 n).map some
    | none => .error (.malformedInput .keyAlgorithm)

/-- The curve of a key with two coordinates. -/
def readCurve (entries : Entries) : Result Curve := do
  match (entries.atInt? firstLabel).bind Value.toInt? with
  | none => .error (.malformedInput .keyCurveMissing)
  | some n =>
    let id ← signed64 n
    match Curve.ofId? id with
    | some curve => .ok curve
    | none => .error (.unsupportedAlgorithm (.ecCurve id))

/-- Refuses an octet key pair on another curve than Ed25519. -/
def checkOctetKeyCurve (entries : Entries) : Result Unit := do
  match (entries.atInt? firstLabel).bind Value.toInt? with
  | none => .error (.unsupportedAlgorithm .octetKeyCurve)
  | some n =>
    let id ← signed64 n
    if id = ed25519Id then .ok () else .error (.unsupportedAlgorithm .octetKeyCurve)

/-- The byte string with the given label; `field` names it in errors. -/
def readBytes (entries : Entries) (label : Int) (field : String) : Result Bytes :=
  match entries.atInt? label with
  | some (.bytes b) => .ok b
  | some _ => .error (.malformedInput (.keyFieldShape field))
  | none => .error (.malformedInput (.keyLacks field))

/-- The key with the given type and algorithm and the other fields of the map. -/
def readFields (entries : Entries) (keyType : Int) (alg : Option Int) : Result CredentialKey :=
  if keyType = ec2Type then do
    let curve ← readCurve entries
    let x ← readBytes entries secondLabel "EC2 x-coordinate"
    let y ← readBytes entries thirdLabel "EC2 y-coordinate"
    return ec2 alg curve x y
  else if keyType = okpType then do
    checkOctetKeyCurve entries
    let x ← readBytes entries secondLabel "OKP public key"
    return okp alg x
  else if keyType = rsaType then do
    let modulus ← readBytes entries firstLabel "RSA modulus"
    let exponent ← readBytes entries secondLabel "RSA exponent"
    return rsa alg modulus exponent
  else .error (.unsupportedAlgorithm (.keyType keyType))

/-- The key that a COSE map describes. -/
def ofCbor : Value → Result CredentialKey
  | .map entries => do
    let keyType ← readKeyType entries
    let alg ← readAlg entries
    readFields entries keyType alg
  | _ => .error (.malformedInput .keyShape)

/-! ## Encoding -/

/-- The entry of the algorithm, if the key names one. -/
def algEntries : Option Int → Entries
  | none => []
  | some alg => [(Value.ofInt algLabel, Value.ofInt alg)]

/-- The COSE map of a key. -/
def toCbor : CredentialKey → Value
  | ec2 alg curve x y => .map <|
    (Value.ofInt keyTypeLabel, Value.ofInt ec2Type) :: algEntries alg ++
      [(Value.ofInt firstLabel, Value.ofInt curve.id), (Value.ofInt secondLabel, .bytes x),
        (Value.ofInt thirdLabel, .bytes y)]
  | okp alg x => .map <|
    (Value.ofInt keyTypeLabel, Value.ofInt okpType) :: algEntries alg ++
      [(Value.ofInt firstLabel, Value.ofInt ed25519Id), (Value.ofInt secondLabel, .bytes x)]
  | rsa alg modulus exponent => .map <|
    (Value.ofInt keyTypeLabel, Value.ofInt rsaType) :: algEntries alg ++
      [(Value.ofInt firstLabel, .bytes modulus), (Value.ofInt secondLabel, .bytes exponent)]

end CredentialKey

end Attestation
