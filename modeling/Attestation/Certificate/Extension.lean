import Attestation.Certificate.Basic
import Attestation.Der.Value
import Attestation.KeyDescription

/-!
# Extensions of certificates

What the extensions say that a verification asks for: whether the key may certify others, what it
may be used for, the alternative names of the subject, and, in extensions of their own, the model of
the authenticator, a nonce, and the description of an Android key. Basic constraints, key usage and
alternative names may occur once; of the others the first one counts.
-/

namespace Attestation

open Der

/-- An alternative name of a subject. -/
inductive GeneralName where
  | directory (name : DistinguishedName)
  /-- A name of another kind. -/
  | other
  deriving DecidableEq, Repr

/-- The identifier of an authenticator's model in a certificate. -/
structure AaguidExtension where
  aaguid : Bytes
  critical : Bool
  deriving DecidableEq, Repr

namespace Certificate

/-! ## Types -/

/-- Alternative names of the subject: 2.5.29.17. -/
def alternativeNamesId : Bytes := [0x55, 0x1d, 0x11]

/-- Basic constraints: 2.5.29.19. -/
def basicConstraintsId : Bytes := [0x55, 0x1d, 0x13]

/-- Extended key usage: 2.5.29.37. -/
def keyUsageId : Bytes := [0x55, 0x1d, 0x25]

/-- The identifier of an authenticator's model: 1.3.6.1.4.1.45724.1.1.4. -/
def aaguidId : Bytes :=
  [0x2b, 0x06, 0x01, 0x04, 0x01, 0x82, 0xe5, 0x1c, 0x01, 0x01, 0x04]

/-- The nonce of an anonymous attestation: 1.2.840.113635.100.8.2. -/
def appleNonceId : Bytes := [0x2a, 0x86, 0x48, 0x86, 0xf7, 0x63, 0x64, 0x08, 0x02]

/-- The description of an Android key: 1.3.6.1.4.1.11129.2.1.17. -/
def keyDescriptionId : Bytes := [0x2b, 0x06, 0x01, 0x04, 0x01, 0xd6, 0x79, 0x02, 0x01, 0x11]

/-! ## Basic constraints -/

/-- The key may certify others, as the values of basic constraints tell; a length of the path may
follow, or stand alone. -/
def authorityOf? : List Value → Option Bool
  | [] => some false
  | [.boolean b] => some b
  | [v] => v.toWord32?.map fun _ => false
  | [.boolean b, v] => v.toWord32?.map fun _ => b
  | _ => none

/-- The content of basic constraints says that the key may certify others. -/
def authority? (content : Bytes) : Option Bool := do
  match ← Value.readNumbered TagNumber.sequence content with
  | (.sequence vs, _) => authorityOf? vs
  | _ => none

/-- The certificate says that its key may certify others. Basic constraints that cannot be decoded
say nothing. -/
def isAuthority (c : Certificate) : Result Bool := do
  let e ← c.soleExtension basicConstraintsId .basicConstraints
  return (e.bind fun e => authority? e.content).getD false

/-- Refuses a certificate whose key may certify others. -/
def requireNotAuthority (c : Certificate) : Result Unit := do
  require (!(← c.isAuthority)) .authority

/-! ## Key usage -/

/-- The purposes that a content of extended key usage lists, by their object identifiers. -/
def usages? (content : Bytes) : Option (List Bytes) := do
  let (list, _) ← Element.readNumbered TagNumber.sequence content
  Reader.all Element.readObjectId list.content.length list.content

/-- The purposes that extended key usage allows, if the certificate limits them. -/
def usages (c : Certificate) : Result (Option (List Bytes)) := do
  match ← c.soleExtension keyUsageId .keyUsage with
  | some e => some <$> orFault .keyUsage (usages? e.content)
  | none => return none

/-! ## Alternative names -/

/-- The alternative name that an element is, by its number. -/
def generalName? (e : Element) : Option GeneralName :=
  if e.tagClass = .contextSpecific then
    match e.number with
    | 0 => (Element.readObjectId e.content).map fun _ => .other
    | 1 | 2 | 6 => e.content.toText?.map fun _ => .other
    | 4 => do
      match ← DistinguishedName.read e.content with
      | (name, []) => some (.directory name)
      | _ => none
    | 3 | 5 | 7 | 8 => some .other
    | _ => none
  else none

/-- The alternative names in a content. -/
def alternativeNames? (content : Bytes) : Option (List GeneralName) := do
  let (names, _) ← Element.readSequence content
  let es ← Reader.all Element.read names.length names
  es.mapM generalName?

/-- The alternative names of the subject, if there is the extension. -/
def alternativeNames (c : Certificate) : Result (Option (List GeneralName)) := do
  match ← c.soleExtension alternativeNamesId .alternativeName with
  | some e => some <$> orFault .alternativeName (alternativeNames? e.content)
  | none => return none

/-! ## Extensions of their own -/

/-- The sixteen bytes of the octet string that the content is. -/
def aaguidOf (content : Bytes) : Result Bytes :=
  match Value.read content with
  | some (.octets b, []) => do
    require (b.length == 16) .aaguidLength
    return b
  | _ => .error (.certificateInvalid .aaguidShape)

/-- The model of the authenticator, if the certificate names one. -/
def aaguid (c : Certificate) : Result (Option AaguidExtension) :=
  match c.extension? aaguidId with
  | some e => do
    let b ← aaguidOf e.content
    return some ⟨b, e.critical⟩
  | none => .ok none

/-- The number of the part that holds a nonce. -/
def nonceNumber : Nat := 1

/-- The content of the first part that holds a nonce. -/
def nonceContent? (vs : List Value) : Option Bytes :=
  vs.findSome? fun
    | .tagged number content => if number = nonceNumber then some content else none
    | _ => none

/-- The octet string inside the part that holds a nonce. -/
def appleNonceOf (content : Bytes) : Result Bytes :=
  match Value.read content with
  | some (.sequence vs, _) => do
    let tagged ← orFault .appleNonceMissing (nonceContent? vs)
    let (e, _) ← orFault .appleNonce (Element.readNumbered TagNumber.octetString tagged)
    return e.content
  | _ => .error (.certificateInvalid .appleNonce)

/-- The nonce of an anonymous attestation. -/
def appleNonce (c : Certificate) : Result Bytes := do
  let e ← orFault .noAppleNonce (c.extension? appleNonceId)
  appleNonceOf e.content

/-- The description of an Android key. -/
def keyDescription (c : Certificate) : Result KeyDescription := do
  let e ← orFault .noKeyDescription (c.extension? keyDescriptionId)
  KeyDescription.parse e.content

end Certificate

end Attestation
