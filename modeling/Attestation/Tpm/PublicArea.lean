import Attestation.PublicKey
import Attestation.Tpm.Cursor

/-!
# Public areas of TPM objects

The public part of a key that a TPM holds. Of the symmetric, signing and derivation schemes only the
algorithms are kept; their details are skipped. `PublicArea.key?` is the key that the area
describes, in which an exponent of zero is the default one.
-/

namespace Attestation.Tpm

/-! ## Identifiers of the TPM registry -/

/-- RSA keys. -/
def rsaId : UInt16 := 0x0001

/-- No algorithm. -/
def nullId : UInt16 := 0x0010

/-- The anonymous signing scheme, which has a counter. -/
def ecdaaId : UInt16 := 0x001a

/-- Keys on a curve. -/
def eccId : UInt16 := 0x0023

/-- The hash function with the given identifier, of those that objects are named by here. -/
def digestOfId? : UInt16 → Option Digest
  | 0x0004 => some .sha1
  | 0x000b => some .sha256
  | 0x000c => some .sha384
  | 0x000d => some .sha512
  | _ => none

/-- The curve with the given identifier. -/
def curveOfId? : UInt16 → Option Curve
  | 0x0003 => some .p256
  | 0x0004 => some .p384
  | 0x0005 => some .p521
  | _ => none

/-! ## Areas -/

/-- The parameters and the key of an area, by the type of the object. -/
inductive PublicBody where
  | rsa (symmetric scheme keyBits : UInt16) (exponent : UInt32) (modulus : Bytes)
  | ecc (symmetric scheme curve kdf : UInt16) (x y : Bytes)
  /-- An object of another type, undecoded. -/
  | other (b : Bytes)
  deriving DecidableEq, Repr

/-- The public area of an object. -/
structure PublicArea where
  type : UInt16
  nameAlg : UInt16
  attributes : UInt32
  authPolicy : Bytes
  body : PublicBody
  deriving DecidableEq, Repr

namespace PublicArea

/-- The details of a symmetric algorithm: key length and mode, unless there is none. -/
def symmetricDetails (alg : UInt16) : List String :=
  if alg = nullId then [] else ["symmetric.keyBits", "symmetric.mode"]

/-- The details of a signing scheme: its hash algorithm, unless there is none; the anonymous scheme
has a counter too. -/
def schemeDetails (scheme : UInt16) : List String :=
  if scheme = nullId then []
  else if scheme = ecdaaId then ["scheme.hashAlg", "scheme.count"]
  else ["scheme.hashAlg"]

/-- The details of a key derivation scheme: its hash algorithm, unless there is none. -/
def kdfDetails (kdf : UInt16) : List String :=
  if kdf = nullId then [] else ["kdf.hashAlg"]

/-- Skips words of 16 bits with the given names. -/
def skipWords : List String → Read Unit
  | [] => return ()
  | field :: fields => do
    discard <| Read.word16 field
    skipWords fields

/-- Reads the identifier of an algorithm and skips its details. -/
def readAlgorithm (field : String) (details : UInt16 → List String) : Read UInt16 := do
  let id ← Read.word16 field
  skipWords (details id)
  return id

/-- Reads a symmetric algorithm. -/
def readSymmetric : Read UInt16 :=
  readAlgorithm "symmetric" symmetricDetails

/-- Reads a signing scheme. -/
def readScheme : Read UInt16 :=
  readAlgorithm "scheme" schemeDetails

/-- Reads a key derivation scheme. -/
def readKdf : Read UInt16 :=
  readAlgorithm "kdf" kdfDetails

/-- Reads the parameters and the key of an RSA object. -/
def readRsa : Read PublicBody := do
  let symmetric ← readSymmetric
  let scheme ← readScheme
  let keyBits ← Read.word16 "keyBits"
  let exponent ← Read.word32 "exponent"
  let modulus ← Read.sized "unique.rsa"
  return .rsa symmetric scheme keyBits exponent modulus

/-- Reads the parameters and the key of an object on a curve. -/
def readEcc : Read PublicBody := do
  let symmetric ← readSymmetric
  let scheme ← readScheme
  let curve ← Read.word16 "curveID"
  let kdf ← readKdf
  let x ← Read.sized "unique.ecc.x"
  let y ← Read.sized "unique.ecc.y"
  return .ecc symmetric scheme curve kdf x y

/-- Reads the parameters and the key of an object of the given type. -/
def readBody (type : UInt16) : Read PublicBody :=
  if type = rsaId then readRsa
  else if type = eccId then readEcc
  else return .other (← Read.remainder)

/-- Reads a public area. -/
def read : Read PublicArea := do
  let type ← Read.word16 "type"
  let nameAlg ← Read.word16 "nameAlg"
  let attributes ← Read.word32 "objectAttributes"
  let authPolicy ← Read.sized "authPolicy"
  let body ← readBody type
  Read.finish "TPMT_PUBLIC"
  return ⟨type, nameAlg, attributes, authPolicy, body⟩

/-- The public area that the bytes encode. -/
def parse : Bytes → Result PublicArea :=
  read.parse

/-- The exponent 65537, which an exponent of zero stands for. -/
def defaultExponent : UInt32 := 65537

/-- The shortest byte string of the exponent that the given one stands for. -/
def exponentBytes (exponent : UInt32) : Bytes :=
  (Bytes.ofNat 4 (if exponent = 0 then defaultExponent else exponent).toNat).trimZeros

/-- The key that the area describes, if it is an RSA key or a key on a known curve. -/
def key? (area : PublicArea) : Option PublicKey :=
  match area.body with
  | .rsa _ _ _ exponent modulus => some (.rsa modulus (exponentBytes exponent))
  | .ecc _ _ curve _ x y => (curveOfId? curve).map fun curve => .ec curve x y
  | .other _ => none

end PublicArea

end Attestation.Tpm
