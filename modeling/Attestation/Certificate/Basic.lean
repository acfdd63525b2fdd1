import Attestation.Certificate.Name
import Attestation.Der.Time
import Attestation.Error

/-!
# Certificates

The parts of a certificate that attestations are verified by. `Certificate.parse` decodes the
distinguished encoding of a certificate; the dates have to be dates, but neither they nor the
issuer's signature are verified. What follows the fields of a structure, inside of it, is ignored,
other than after the list of extensions.
-/

namespace Attestation

open Der

/-- An extension of a certificate. -/
structure CertificateExtension where
  /-- The content of the object identifier of its type. -/
  id : Bytes
  critical : Bool
  content : Bytes
  deriving DecidableEq, Repr

/-- A certificate. -/
structure Certificate where
  /-- The encoded version, one less than the version itself. -/
  version : UInt32
  subject : DistinguishedName
  /-- The content of the object identifier of the key's algorithm. -/
  keyAlgorithm : Bytes
  /-- The parameters of the key's algorithm, undecoded, if there are any. -/
  keyParameters : Option Element
  keyBits : Bytes
  extensions : List CertificateExtension
  deriving DecidableEq, Repr

namespace CertificateExtension

/-- Takes the mark of a critical extension, if it is there; any byte but zero is true. -/
def readCritical : Reader Bool := fun b => do
  let (e, rest) ← Element.read b
  if e.number = TagNumber.boolean ∧ e.content.length = 1 then
    return (e.content != [0x00], rest)
  else return (false, b)

/-- Takes an extension. -/
def read : Reader CertificateExtension := fun b => do
  let (content, b) ← Element.readSequence b
  let (id, content) ← Element.readObjectId content
  let (critical, content) ← readCritical content
  let (value, _) ← Element.readPrimitive TagNumber.octetString content
  return (⟨id, critical, value⟩, b)

/-- The extensions that the end of a certificate's content lists; they must reach up to it. -/
def ofEnd? (b : Bytes) : Option (List CertificateExtension) :=
  if b = [] then some [] else do
    let (h, b) ← Der.Header.read b
    if h.number = 3 ∧ h.extent ≠ .indefinite then
      let (content, rest) ← Element.readSequence b
      if rest = [] then Reader.all read content.length content else none
    else none

end CertificateExtension

namespace Certificate

/-! ## Decoding -/

/-- The number below 2 ^ 32 whose shortest two's complement form the content is. -/
def word32? (b : Bytes) : Option UInt32 :=
  if Der.isShortestInteger b ∧ b.head?.all (· < 0x80) ∧ b.toNat < 2 ^ 32 then
    some (UInt32.ofNat b.toNat)
  else none

/-- Takes the version, which is 0 when it is absent. -/
def readVersion : Reader UInt32 := fun b => do
  let (e, rest) ← Element.read b
  if e.number = 0 then
    if e.tagClass = .contextSpecific then
      let (content, _) ← Element.readPrimitive TagNumber.integer e.content
      return (← word32? content, rest)
    else none
  else return (0, b)

/-- The bytes after the serial number, which comes next. The basic rules are enough for it. -/
def skipSerial (b : Bytes) : Option Bytes := do
  let (e, b) ← Element.readBasic b
  if e.number = TagNumber.integer then some b else none

/-- The parameters of an algorithm that are in the bytes after its object identifier: one element,
or none where there are no bytes. -/
def parameters? (b : Bytes) : Option (Option Element) :=
  if b = [] then some none else (Element.read b).map fun (e, _) => some e

/-- Takes the identifier of an algorithm, and gives the object identifier in it with the
parameters. -/
def readAlgorithm : Reader (Bytes × Option Element) := fun b => do
  let (e, b) ← Element.readNumbered TagNumber.sequence b
  let (id, rest) ← Element.readObjectId e.content
  let parameters ← parameters? rest
  return ((id, parameters), b)

/-- Takes a time, which has to be one of the calendar. -/
def readTime : Reader Der.Time := fun b => do
  let (e, b) ← Element.read b
  let time ←
    if e.number = TagNumber.utcTime then Der.Time.ofUtc? e.content
    else if e.number = TagNumber.generalizedTime ∧ 0x2c ∉ e.content then
      Der.Time.ofGeneralized? e.content
    else none
  if e.content.getLast? = some Der.Time.zulu ∧ time.InCalendar then return (time, b) else none

/-- Takes the times between which the certificate is valid. -/
def readValidity : Reader (Der.Time × Der.Time) := fun b => do
  let (content, b) ← Element.readSequence b
  let (times, _) ← Reader.pair readTime readTime content
  return (times, b)

/-- Takes the key: its algorithm, and its bytes. -/
def readKey : Reader ((Bytes × Option Element) × Bytes) := fun b => do
  let (content, b) ← Element.readSequence b
  let (algorithm, content) ← readAlgorithm content
  let (bits, _) ← Element.readBits content
  return ((algorithm, bits), b)

/-- Skips the identifier of an issuer or a subject, a bit string under the given number, if it is
there. -/
def skipUniqueId (number : Nat) (b : Bytes) : Option Bytes :=
  match Element.read b with
  | some (e, rest) =>
    if e.number = number ∧ e.tagClass = .contextSpecific then
      if e.constructed then none else (Element.bits? e.content).map fun _ => rest
    else some b
  | none => some b

/-- The certificate that a content to be signed describes. -/
def ofContent? (b : Bytes) : Option Certificate := do
  let (version, b) ← readVersion b
  let b ← skipSerial b
  let (_, b) ← readAlgorithm b
  let (_, b) ← DistinguishedName.read b
  let (_, b) ← readValidity b
  let (subject, b) ← DistinguishedName.read b
  let (((keyAlgorithm, keyParameters), keyBits), b) ← readKey b
  let b ← skipUniqueId 1 b
  let b ← skipUniqueId 2 b
  let extensions ← CertificateExtension.ofEnd? b
  return ⟨version, subject, keyAlgorithm, keyParameters, keyBits, extensions⟩

/-- Takes a certificate. -/
def read : Reader Certificate := fun b => do
  let (content, b) ← Element.readSequence b
  let (signed, content) ← Element.readSequence content
  let certificate ← ofContent? signed
  let (_, content) ← readAlgorithm content
  let _ ← Element.readBits content
  return (certificate, b)

/-- The certificate that the bytes encode. Nothing may follow it. -/
def parse (der : Bytes) : Result Certificate :=
  match read der with
  | some (certificate, []) => .ok certificate
  | some (_, _ :: _) => .error (.certificateInvalid .trailingBytes)
  | none => .error (.certificateInvalid .unreadable)

/-! ## Parts -/

/-- What is there, or else the fault. -/
def orFault {α : Type} (fault : CertificateFault) : Option α → Result α
  | some x => .ok x
  | none => .error (.certificateInvalid fault)

/-- Refuses a certificate, for the given fault, unless the condition holds. -/
def require (condition : Bool) (fault : CertificateFault) : Result Unit :=
  if condition then .ok () else .error (.certificateInvalid fault)

/-- The first extension of the given type. -/
def extension? (c : Certificate) (id : Bytes) : Option CertificateExtension :=
  c.extensions.find? fun e => e.id == id

/-- The extension of the given type, if there is one; more than one is the fault. -/
def soleExtension (c : Certificate) (id : Bytes) (fault : CertificateFault) :
    Result (Option CertificateExtension) :=
  match c.extensions.filter fun e => e.id == id with
  | [] => .ok none
  | [e] => .ok (some e)
  | _ => .error (.certificateInvalid fault)

/-- The encoded form of version 3. -/
def version3 : UInt32 := 2

/-- Refuses a certificate of another version than 3. -/
def requireVersion3 (c : Certificate) : Result Unit :=
  require (c.version == version3) (.version c.version)

end Certificate

end Attestation
