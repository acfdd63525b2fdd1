import Attestation.Checked
import Attestation.Tpm.Attest
import Attestation.Tpm.PublicArea

/-!
# Reading TPM structures by offsets

A structure is held as a whole, with the offset of what comes next. A step takes a slice at the
offset and moves it; that the slice is in range is checked before, with a sum that has to fit a
word. The structures are read by these steps as they are by those on a `Cursor`. The steps may also
be called in any order, and after one that failed (`Call.runAll`).
-/

namespace Attestation.Tpm

/-- A place in a structure: the whole structure, and how many bytes lie before the place. -/
structure Place where
  data : Bytes
  position : Nat
  deriving DecidableEq, Repr

namespace Place

/-- The beginning of a structure. -/
def start (b : Bytes) : Place :=
  ⟨b, 0⟩

/-- The place is not behind the end of its structure. -/
def Inside (p : Place) : Prop :=
  p.position ≤ p.data.length

/-- The place as a cursor, which holds what lies behind it. -/
def cursor (p : Place) : Cursor :=
  ⟨p.position, p.data.drop p.position⟩

/-- The end of the next `n` bytes, if there are that many. -/
def stop? (p : Place) (n : Nat) : Option Nat :=
  (Checked.addSize? p.position n).filter (· ≤ p.data.length)

end Place

/-- A step that reads at a place and moves it. -/
abbrev CheckedRead (α : Type) := ExceptT Error (StateT Place (Except Trap)) α

namespace CheckedRead

/-- The next `n` bytes; `field` names them in errors. -/
def bytes (n : Nat) (field : String) : CheckedRead Bytes := do
  let p ← get
  match p.stop? n with
  | none => throw (.malformedInput (.truncated field p.position))
  | some stop => do
    let b ← Checked.slice p.data p.position stop
    set (⟨p.data, stop⟩ : Place)
    return b

/-- A byte. -/
def word8 (field : String) : CheckedRead UInt8 := do
  let b ← bytes 1 field
  Checked.index b 0

/-- A word of 16 bits. -/
def word16 (field : String) : CheckedRead UInt16 := do
  let b ← bytes 2 field
  let digits ← Checked.indices b 0 2
  return UInt16.ofNat digits.toNat

/-- A word of 32 bits. -/
def word32 (field : String) : CheckedRead UInt32 := do
  let b ← bytes 4 field
  let digits ← Checked.indices b 0 4
  return UInt32.ofNat digits.toNat

/-- A word of 64 bits, by a copy of its bytes. -/
def word64 (field : String) : CheckedRead UInt64 := do
  let b ← bytes 8 field
  let digits ← Checked.copy 8 b
  return UInt64.ofNat digits.toNat

/-- A byte string after its length in 16 bits. -/
def sized (field : String) : CheckedRead Bytes := do
  let length ← word16 field
  bytes length.toNat field

/-- All the bytes that are left. -/
def remainder : CheckedRead Bytes := do
  let p ← get
  let b ← Checked.sliceFrom p.data p.position
  set (⟨p.data, p.data.length⟩ : Place)
  return b

/-- The end of the structure with the given name; bytes left over are refused. -/
def finish (structureName : String) : CheckedRead Unit := do
  let p ← get
  let left ← Checked.sub p.data.length p.position
  if left = 0 then return () else throw (.malformedInput (.trailing left structureName))

/-- The result of a step at the beginning of a structure. -/
def parse {α : Type} (read : CheckedRead α) (b : Bytes) : CheckedResult α :=
  ExceptT.mk (Prod.fst <$> read.run.run (.start b))

end CheckedRead

/-! ## Attestation structures -/

namespace Attest.Checked

/-- Reads the clock. -/
def readClockInfo : CheckedRead ClockInfo := do
  let clock ← CheckedRead.word64 "clock"
  let resetCount ← CheckedRead.word32 "resetCount"
  let restartCount ← CheckedRead.word32 "restartCount"
  let safe ← CheckedRead.word8 "safe"
  return ⟨clock, resetCount, restartCount, safe != 0⟩

/-- Reads the certified object, to the end. That the name holds an identifier is checked at once,
but the name is cut only at the end. -/
def readCertifyInfo : CheckedRead CertifyInfo := do
  let name ← CheckedRead.sized "name"
  if name.length < 2 then throw (.malformedInput .certifiedNameLength)
  else do
    let qualifiedName ← CheckedRead.sized "qualifiedName"
    CheckedRead.finish "TPMS_ATTEST"
    let nameAlg ← Checked.indices name 0 2
    let nameDigest ← Checked.sliceFrom name 2
    return ⟨UInt16.ofNat nameAlg.toNat, nameDigest, qualifiedName⟩

/-- Reads what is attested. -/
def readAttested (type : UInt16) : CheckedRead Attested :=
  if type = certifyType then return .certify (← readCertifyInfo)
  else return .other (← CheckedRead.remainder)

/-- Reads an attestation structure. -/
def read : CheckedRead Attest := do
  let magic ← CheckedRead.word32 "magic"
  let type ← CheckedRead.word16 "type"
  let qualifiedSigner ← CheckedRead.sized "qualifiedSigner"
  let extraData ← CheckedRead.sized "extraData"
  let clockInfo ← readClockInfo
  let firmwareVersion ← CheckedRead.word64 "firmwareVersion"
  let attested ← readAttested type
  return ⟨magic, type, qualifiedSigner, extraData, clockInfo, firmwareVersion, attested⟩

/-- The attestation structure that the bytes encode. -/
def parse : Bytes → CheckedResult Attest :=
  read.parse

end Attest.Checked

/-! ## Public areas -/

namespace PublicArea.Checked

/-- Skips words of 16 bits with the given names. -/
def skipWords : List String → CheckedRead Unit
  | [] => return ()
  | field :: fields => do
    discard <| CheckedRead.word16 field
    skipWords fields

/-- Reads the identifier of an algorithm and skips its details. -/
def readAlgorithm (field : String) (details : UInt16 → List String) : CheckedRead UInt16 := do
  let id ← CheckedRead.word16 field
  skipWords (details id)
  return id

/-- Reads the parameters and the key of an RSA object. -/
def readRsa : CheckedRead PublicBody := do
  let symmetric ← readAlgorithm "symmetric" symmetricDetails
  let scheme ← readAlgorithm "scheme" schemeDetails
  let keyBits ← CheckedRead.word16 "keyBits"
  let exponent ← CheckedRead.word32 "exponent"
  let modulus ← CheckedRead.sized "unique.rsa"
  return .rsa symmetric scheme keyBits exponent modulus

/-- Reads the parameters and the key of an object on a curve. -/
def readEcc : CheckedRead PublicBody := do
  let symmetric ← readAlgorithm "symmetric" symmetricDetails
  let scheme ← readAlgorithm "scheme" schemeDetails
  let curve ← CheckedRead.word16 "curveID"
  let kdf ← readAlgorithm "kdf" kdfDetails
  let x ← CheckedRead.sized "unique.ecc.x"
  let y ← CheckedRead.sized "unique.ecc.y"
  return .ecc symmetric scheme curve kdf x y

/-- Reads the parameters and the key of an object of the given type. -/
def readBody (type : UInt16) : CheckedRead PublicBody :=
  if type = rsaId then readRsa
  else if type = eccId then readEcc
  else return .other (← CheckedRead.remainder)

/-- Reads a public area. -/
def read : CheckedRead PublicArea := do
  let type ← CheckedRead.word16 "type"
  let nameAlg ← CheckedRead.word16 "nameAlg"
  let attributes ← CheckedRead.word32 "objectAttributes"
  let authPolicy ← CheckedRead.sized "authPolicy"
  let body ← readBody type
  CheckedRead.finish "TPMT_PUBLIC"
  return ⟨type, nameAlg, attributes, authPolicy, body⟩

/-- The public area that the bytes encode. -/
def parse : Bytes → CheckedResult PublicArea :=
  read.parse

/-- The key that the area describes, if it is an RSA key or a key on a known curve. -/
def key? (area : PublicArea) : Checked (Option PublicKey) :=
  match area.body with
  | .rsa _ _ _ exponent modulus => do
    let effective := if exponent = 0 then defaultExponent else exponent
    let digits ← Checked.trimZeros (Bytes.ofNat 4 effective.toNat)
    return some (.rsa modulus digits)
  | .ecc _ _ curve _ x y => return (curveOfId? curve).map fun curve => .ec curve x y
  | .other _ => return none

end PublicArea.Checked

/-! ## Calls in any order -/

/-- A call of a step. -/
inductive Call where
  | bytes (n : Nat)
  | word8
  | word16
  | word32
  | word64
  | sized
  | remainder
  | finish
  deriving DecidableEq, Repr

namespace Call

/-- The step that is called, under a name for errors; what it reads is not kept. -/
def step (name : String) : Call → CheckedRead Unit
  | bytes n => discard <| CheckedRead.bytes n name
  | word8 => discard <| CheckedRead.word8 name
  | word16 => discard <| CheckedRead.word16 name
  | word32 => discard <| CheckedRead.word32 name
  | word64 => discard <| CheckedRead.word64 name
  | sized => discard <| CheckedRead.sized name
  | remainder => discard CheckedRead.remainder
  | finish => CheckedRead.finish name

/-- The place after a call, whether it succeeds or fails. -/
def run (call : Call) (name : String) (p : Place) : Checked Place :=
  Prod.snd <$> (call.step name).run.run p

/-- The place after calls one after the other. -/
def runAll (calls : List (Call × String)) (p : Place) : Checked Place :=
  calls.foldlM (fun p call => call.1.run call.2 p) p

end Call

end Attestation.Tpm
