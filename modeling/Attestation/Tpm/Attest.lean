import Attestation.Tpm.Cursor

/-!
# Attestation structures of a TPM

What a TPM signs when it certifies one of its objects: a magic number that no outside data can start
with, the kind of attestation, data from the caller, clock and firmware, and the name of the object.
Attestations of another kind are kept undecoded.
-/

namespace Attestation.Tpm

/-- The clock of a TPM. -/
structure ClockInfo where
  clock : UInt64
  resetCount : UInt32
  restartCount : UInt32
  safe : Bool
  deriving DecidableEq, Repr

/-- The certified object: its name, which is the identifier of a hash algorithm and a digest, and
its qualified name. -/
structure CertifyInfo where
  nameAlg : UInt16
  nameDigest : Bytes
  qualifiedName : Bytes
  deriving DecidableEq, Repr

/-- What is attested. -/
inductive Attested where
  | certify (info : CertifyInfo)
  /-- Another kind of attestation, undecoded. -/
  | other (b : Bytes)
  deriving DecidableEq, Repr

/-- An attestation structure. -/
structure Attest where
  magic : UInt32
  type : UInt16
  qualifiedSigner : Bytes
  extraData : Bytes
  clockInfo : ClockInfo
  firmwareVersion : UInt64
  attested : Attested
  deriving DecidableEq, Repr

namespace Attest

/-- The magic number of a structure that the TPM generated: the byte `ff` and `TCG`. -/
def generatedMagic : UInt32 := 0xff544347

/-- The kind of an attestation that certifies an object. -/
def certifyType : UInt16 := 0x8017

/-- Reads the clock. -/
def readClockInfo : Read ClockInfo := do
  let clock ← Read.word64 "clock"
  let resetCount ← Read.word32 "resetCount"
  let restartCount ← Read.word32 "restartCount"
  let safe ← Read.word8 "safe"
  return ⟨clock, resetCount, restartCount, safe != 0⟩

/-- The identifier and the digest that make up a name. -/
def splitName (name : Bytes) : Read (UInt16 × Bytes) :=
  match name.splitAt? 2 with
  | some (alg, digest) => return (UInt16.ofNat alg.toNat, digest)
  | none => throw (.malformedInput .certifiedNameLength)

/-- Reads the certified object, to the end. -/
def readCertifyInfo : Read CertifyInfo := do
  let name ← Read.sized "name"
  let (nameAlg, nameDigest) ← splitName name
  let qualifiedName ← Read.sized "qualifiedName"
  Read.finish "TPMS_ATTEST"
  return ⟨nameAlg, nameDigest, qualifiedName⟩

/-- Reads what is attested. -/
def readAttested (type : UInt16) : Read Attested :=
  if type = certifyType then return .certify (← readCertifyInfo)
  else return .other (← Read.remainder)

/-- Reads an attestation structure. -/
def read : Read Attest := do
  let magic ← Read.word32 "magic"
  let type ← Read.word16 "type"
  let qualifiedSigner ← Read.sized "qualifiedSigner"
  let extraData ← Read.sized "extraData"
  let clockInfo ← readClockInfo
  let firmwareVersion ← Read.word64 "firmwareVersion"
  let attested ← readAttested type
  return ⟨magic, type, qualifiedSigner, extraData, clockInfo, firmwareVersion, attested⟩

/-- The attestation structure that the bytes encode. -/
def parse : Bytes → Result Attest :=
  read.parse

end Attest

end Attestation.Tpm
