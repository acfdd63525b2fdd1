import Attestation.Der.Value
import Attestation.Error

/-!
# Descriptions of Android keys

What the keystore of an Android device says of a key in the certificate that attests it: the version
and the security level of the attestation, a challenge, and two lists of authorizations, the ones
that software enforces and the ones that the trusted environment enforces. `KeyDescription.parse`
decodes it. Of the authorizations only those that a verification needs are kept; they are told by
the number of their tag.
-/

namespace Attestation

open Der (Element Value)

/-- The authorizations of a key. -/
structure AuthorizationList where
  /-- What the key may be used for, in the written order. -/
  purposes : List Int := []
  /-- Where the key comes from. -/
  origin : Option Int := none
  /-- The key is not bound to one application. -/
  allApplications : Bool := false
  deriving DecidableEq, Repr

/-- The description of a key. -/
structure KeyDescription where
  version : Int
  securityLevel : Nat
  challenge : Bytes
  softwareEnforced : AuthorizationList
  teeEnforced : AuthorizationList
  deriving DecidableEq, Repr

namespace AuthorizationList

/-- The number of the purposes. -/
def purposesNumber : Nat := 1

/-- The number of the mark of a key that is not bound to one application. -/
def allApplicationsNumber : Nat := 600

/-- The number of the origin. -/
def originNumber : Nat := 702

/-- The set of integers at the beginning of a content. -/
def purposes? (content : Bytes) : Option (List Int) := do
  match ← Value.readNumbered Der.TagNumber.set content with
  | (.set vs, _) => vs.mapM Value.toInt64?
  | _ => none

/-- The integer at the beginning of a content. -/
def origin? (content : Bytes) : Option Int := do
  let (v, _) ← Value.readNumbered Der.TagNumber.integer content
  v.toInt64?

/-- The list after one more entry: purposes add up, and a later origin replaces an earlier one. -/
def add? (list : AuthorizationList) : Value → Option AuthorizationList
  | .tagged number content =>
    if number = purposesNumber then do
      return { list with purposes := list.purposes ++ (← purposes? content) }
    else if number = allApplicationsNumber then some { list with allApplications := true }
    else if number = originNumber then do
      return { list with origin := some (← origin? content) }
    else some list
  | _ => some list

/-- Takes a list. -/
def read : Reader AuthorizationList := fun b => do
  let (content, b) ← Element.readSequence b
  let entries ← Reader.all Value.read content.length content
  return (← entries.foldlM add? {}, b)

end AuthorizationList

namespace KeyDescription

/-- Takes an integer of 64 bits. -/
def readInteger : Reader Int := fun b => do
  let (v, b) ← Value.readNumbered Der.TagNumber.integer b
  return (← v.toInt64?, b)

/-- Takes an enumeration value. -/
def readEnumerated : Reader Nat := fun b => do
  let (v, b) ← Value.readNumbered Der.TagNumber.enumerated b
  return (← v.toWord32?, b)

/-- Takes an octet string. -/
def readOctets : Reader Bytes := fun b => do
  let (e, b) ← Element.readNumbered Der.TagNumber.octetString b
  return (e.content, b)

/-- The description that the content of a sequence holds; what follows its fields is ignored. -/
def ofContent? (b : Bytes) : Option KeyDescription := do
  let (version, b) ← readInteger b
  let (securityLevel, b) ← readEnumerated b
  let (_, b) ← Value.readNumbered Der.TagNumber.integer b
  let (_, b) ← Value.readNumbered Der.TagNumber.enumerated b
  let (challenge, b) ← readOctets b
  let (_, b) ← readOctets b
  let (softwareEnforced, b) ← AuthorizationList.read b
  let (teeEnforced, _) ← AuthorizationList.read b
  return ⟨version, securityLevel, challenge, softwareEnforced, teeEnforced⟩

/-- The description that the bytes encode. Nothing may follow it. -/
def parse (b : Bytes) : Result KeyDescription :=
  let described := do
    let (content, rest) ← Element.readSequence b
    return (← ofContent? content, rest)
  match described with
  | some (description, []) => .ok description
  | some (_, _ :: _) => .error (.certificateInvalid .keyDescriptionTrailing)
  | none => .error (.certificateInvalid .keyDescription)

end KeyDescription

end Attestation
