import Attestation.Der.Element

/-!
# Distinguished names

The name of a subject or an issuer, as the list of its attributes in the written order. What cannot
be read as a set of attributes ends the name, and inside such a set what cannot be read as an
attribute ends the set, after its first attribute.
-/

namespace Attestation

open Der

/-- An attribute of a name. -/
structure NameAttribute where
  /-- The content of the object identifier of its type. -/
  id : Bytes
  /-- The tag of its value, by its number. -/
  tag : Nat
  value : Bytes
  deriving DecidableEq, Repr

namespace NameAttribute

/-- The type of common names: 2.5.4.3. -/
def commonName : Bytes := [0x55, 0x04, 0x03]

/-- The type of countries: 2.5.4.6. -/
def country : Bytes := [0x55, 0x04, 0x06]

/-- The type of organizations: 2.5.4.10. -/
def organization : Bytes := [0x55, 0x04, 0x0a]

/-- The type of organizational units: 2.5.4.11. -/
def organizationalUnit : Bytes := [0x55, 0x04, 0x0b]

/-- The tags of the texts that are ASCII or UTF-8. -/
def textTags : List Nat :=
  [TagNumber.numericText, TagNumber.printableText, TagNumber.utf8Text, TagNumber.ia5Text]

/-- The text that the attribute is, if it is one. -/
def text? (a : NameAttribute) : Option String :=
  if a.tag ∈ textTags then a.value.toText? else none

/-- Takes an attribute. -/
def read : Reader NameAttribute := fun b => do
  let (content, b) ← Element.readSequence b
  let (id, content) ← Element.readObjectId content
  let (value, _) ← Element.read content
  return (⟨id, value.number, value.content⟩, b)

end NameAttribute

/-- The attributes of a name. -/
abbrev DistinguishedName := List NameAttribute

namespace DistinguishedName

/-- Takes a set of attributes, of which there is at least one. -/
def readSet : Reader (List NameAttribute) := fun b => do
  let (content, b) ← Element.readSet b
  let (first, content) ← NameAttribute.read content
  return (first :: (Reader.many NameAttribute.read content.length content).1, b)

/-- Takes a name. -/
def read : Reader DistinguishedName := fun b => do
  let (content, b) ← Element.readSequence b
  return ((Reader.many readSet content.length content).1.flatten, b)

/-- The first attribute of the given type. -/
def first? (name : DistinguishedName) (id : Bytes) : Option NameAttribute :=
  name.find? fun a => a.id == id

end DistinguishedName

end Attestation
