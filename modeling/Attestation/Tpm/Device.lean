import Attestation.Certificate.Extension

/-!
# Certificates of TPM attestation keys

The certificate of an attestation key tells the device in a directory name among the alternative
names of its subject: manufacturer, model and firmware. `Certificate.checkAttestationKey` checks
what such a certificate has to be like, and asks a policy about the device.
-/

namespace Attestation

/-- The device that a TPM is. -/
structure TpmDevice where
  manufacturer : String
  partNumber : String
  firmwareVersion : String
  deriving DecidableEq, Repr

/-- A policy on TPM devices: accepts a device, or rejects it for a reason. -/
abbrev TpmDevicePolicy := TpmDevice → Except String Unit

namespace TpmDevicePolicy

/-- The policy that accepts every device. -/
def acceptAll : TpmDevicePolicy := fun _ => .ok ()

/-- Asks the policy about a device. -/
def check (policy : TpmDevicePolicy) (device : TpmDevice) : Result Unit :=
  match policy device with
  | .ok () => .ok ()
  | .error reason => .error (.devicePropertyRejected reason)

end TpmDevicePolicy

namespace TpmDevice

/-- The type of a TPM's manufacturer: 2.23.133.2.1. -/
def manufacturerId : Bytes := [0x67, 0x81, 0x05, 0x02, 0x01]

/-- The type of a TPM's model: 2.23.133.2.2. -/
def modelId : Bytes := [0x67, 0x81, 0x05, 0x02, 0x02]

/-- The type of a TPM's firmware version: 2.23.133.2.3. -/
def versionId : Bytes := [0x67, 0x81, 0x05, 0x02, 0x03]

/-- The attributes of a device, as far as they are found. -/
structure Attributes where
  manufacturer : Option String := none
  partNumber : Option String := none
  firmwareVersion : Option String := none

/-- The text of an attribute, which has to be UTF-8. -/
def attributeText (a : NameAttribute) : Result String := do
  Certificate.require (a.tag == Der.TagNumber.utf8Text) (.attributeTag a.tag)
  Certificate.orFault .attributeText a.text?

/-- The attributes after one more attribute of a name: a later one replaces an earlier one, and
others are ignored. -/
def Attributes.add (found : Attributes) (a : NameAttribute) : Result Attributes :=
  if a.id = manufacturerId then
    return { found with manufacturer := some (← attributeText a) }
  else if a.id = modelId then
    return { found with partNumber := some (← attributeText a) }
  else if a.id = versionId then
    return { found with firmwareVersion := some (← attributeText a) }
  else .ok found

/-- The attributes of the directory names. -/
def nameAttributes (names : List GeneralName) : List NameAttribute :=
  names.flatMap fun
    | .directory name => name
    | .other => []

/-- The device of the attributes, of which none may be missing. -/
def ofAttributes : Attributes → Result TpmDevice
  | ⟨some manufacturer, some partNumber, some firmwareVersion⟩ =>
    .ok ⟨manufacturer, partNumber, firmwareVersion⟩
  | _ => .error (.certificateInvalid .incompleteDevice)

/-- The device that the alternative names tell. -/
def ofNames (names : List GeneralName) : Result TpmDevice := do
  ofAttributes (← (nameAttributes names).foldlM Attributes.add {})

end TpmDevice

namespace Certificate

/-- The device of the certificate of an attestation key. -/
def tpmDevice (c : Certificate) : Result TpmDevice := do
  let names ← orFault .noAlternativeName (← c.alternativeNames)
  TpmDevice.ofNames names

/-- The purpose of certifying an attestation key: 2.23.133.8.3. -/
def attestationKeyUsage : Bytes := [0x67, 0x81, 0x05, 0x08, 0x03]

/-- Checks the certificate of an attestation key. -/
def checkAttestationKey (policy : TpmDevicePolicy) (c : Certificate) : Result Unit := do
  c.requireVersion3
  require c.subject.isEmpty .subjectNotEmpty
  let device ← c.tpmDevice
  policy.check device
  let usages ← orFault .noKeyUsage (← c.usages)
  require (usages.contains attestationKeyUsage) .noAikUsage
  c.requireNotAuthority

end Certificate

end Attestation
