import Attestation.Certificate.Extension
import Attestation.Proofs.Der.Writing
import Attestation.Proofs.Result

/-!
# Alternative names, written and read back

The alternative names of a subject as they are written: directory names, which are lists of sets of
attributes, and elements of other kinds (`AlternativeName`). An attribute is written with its value
as an element, of which the number of the tag and the content are read, and the class is not
(`WrittenAttribute.asRead`). Everything is read back in its order
(`Certificate.alternativeNames?_alternativeBytes`).
-/

namespace Attestation

open Der (Element lengthLimit)

/-- An attribute of a name as it is written: the content of the object identifier of its type, and
its value. -/
structure WrittenAttribute where
  id : Bytes
  value : Element
  deriving DecidableEq

namespace WrittenAttribute

/-- What is read of the attribute. -/
def asRead (w : WrittenAttribute) : NameAttribute :=
  ⟨w.id, w.value.number, w.value.content⟩

/-- The bytes of the attribute. -/
def encode (w : WrittenAttribute) : Bytes :=
  (Element.sequence ((Element.objectId w.id).encode ++ w.value.encode)).encode

/-- An attribute is read from the bytes that it is written with. -/
theorem takes_encode {w : WrittenAttribute} (hnumber : w.value.number < 2 ^ 32)
    (h : w.encode.length ≤ lengthLimit) : NameAttribute.read.Takes w.encode w.asRead := by
  intro rest
  have hsequence : (Element.sequence ((Element.objectId w.id).encode ++ w.value.encode)).Fits :=
    Element.fits_sequence_of_le h
  have hlength := hsequence.length
  rw [Element.sequence, List.length_append] at hlength
  have hid : (Element.objectId w.id).Fits :=
    Element.fits_of_length_le (show 6 < 2 ^ 32 by decide) (by omega)
  have hvalue : w.value.Fits := Element.fits_of_length_le hnumber (by omega)
  have hconstructed : (Element.objectId w.id).constructed = false := rfl
  rw [NameAttribute.read, encode, Element.takes_sequence hsequence rest]
  simp only [Element.readObjectId, Element.takes_encode hid _, hconstructed,
    (Element.takes_encode hvalue).read_eq, Option.bind_eq_bind, Option.bind_some, Option.pure_def,
    Bool.false_eq_true, if_false]
  rfl

end WrittenAttribute

/-- A set of attributes, of which there is at least one. -/
structure AttributeSet where
  first : WrittenAttribute
  others : List WrittenAttribute
  deriving DecidableEq

namespace AttributeSet

/-- The attributes of the set. -/
def attributes (s : AttributeSet) : List WrittenAttribute :=
  s.first :: s.others

/-- The bytes of the set. -/
def encode (s : AttributeSet) : Bytes :=
  (Element.set (s.attributes.flatMap WrittenAttribute.encode)).encode

/-- The tags of all values can be written. -/
def InRange (s : AttributeSet) : Prop :=
  ∀ w ∈ s.attributes, w.value.number < 2 ^ 32

instance (s : AttributeSet) : Decidable s.InRange :=
  inferInstanceAs (Decidable (∀ w ∈ s.attributes, _))

/-- A set of attributes is read from the bytes that it is written with. -/
theorem takes_encode {s : AttributeSet} (hrange : s.InRange) (h : s.encode.length ≤ lengthLimit) :
    DistinguishedName.readSet.Takes s.encode (s.attributes.map WrittenAttribute.asRead) := by
  intro rest
  have hset : (Element.set (s.attributes.flatMap WrittenAttribute.encode)).Fits :=
    Element.fits_of_length_le (show Der.TagNumber.set < 2 ^ 32 by decide) h
  have htakes (w : WrittenAttribute) (hw : w ∈ s.attributes) :
      NameAttribute.read.Takes w.encode w.asRead :=
    WrittenAttribute.takes_encode (hrange w hw) (hset.length_part_le rfl hw)
  simp only [attributes, List.forall_mem_cons] at htakes
  have hmany := Reader.many_of_all rfl (Reader.all_flatMap rfl htakes.2 (Nat.le_refl _))
  rw [DistinguishedName.readSet, encode, Element.takes_set hset rest]
  simp only [attributes, List.flatMap_cons, htakes.1 (s.others.flatMap WrittenAttribute.encode),
    hmany, Option.bind_eq_bind, Option.bind_some, Option.pure_def, List.map_cons]

end AttributeSet

/-- An alternative name as it is written. -/
inductive AlternativeName where
  | directory (sets : List AttributeSet)
  /-- A name of another kind. -/
  | other (e : Element)
  deriving DecidableEq

namespace AlternativeName

/-- The bytes of a name that consists of the sets. -/
def nameBytes (sets : List AttributeSet) : Bytes :=
  (Element.sequence (sets.flatMap AttributeSet.encode)).encode

/-- The element that the name is. -/
def element : AlternativeName → Element
  | directory sets => ⟨.contextSpecific, true, 4, nameBytes sets⟩
  | other e => e

/-- The attributes of the name, if it is a directory name. -/
def attributes : AlternativeName → List WrittenAttribute
  | directory sets => sets.flatMap AttributeSet.attributes
  | other _ => []

/-- What is read of the name. -/
def generalName : AlternativeName → GeneralName
  | directory sets =>
    .directory ((sets.flatMap AttributeSet.attributes).map WrittenAttribute.asRead)
  | other _ => .other

/-- The tags of a directory name can be written, and a name of another kind is taken as one. -/
def InRange : AlternativeName → Prop
  | directory sets => ∀ s ∈ sets, s.InRange
  | other e => e.number < 2 ^ 32 ∧ Certificate.generalName? e = some .other

instance : (name : AlternativeName) → Decidable name.InRange
  | directory sets => inferInstanceAs (Decidable (∀ s ∈ sets, s.InRange))
  | other _ => inferInstanceAs (Decidable (_ ∧ _))

/-- A directory name is read from the bytes that it is written with, set by set. -/
theorem takes_nameBytes {sets : List AttributeSet} (hrange : ∀ s ∈ sets, s.InRange)
    (h : (nameBytes sets).length ≤ lengthLimit) : DistinguishedName.read.Takes (nameBytes sets)
      ((sets.flatMap AttributeSet.attributes).map WrittenAttribute.asRead) := by
  intro rest
  have hsequence : (Element.sequence (sets.flatMap AttributeSet.encode)).Fits :=
    Element.fits_sequence_of_le h
  have htakes (s : AttributeSet) (hs : s ∈ sets) : DistinguishedName.readSet.Takes s.encode
      (s.attributes.map WrittenAttribute.asRead) :=
    AttributeSet.takes_encode (hrange s hs) (hsequence.length_part_le rfl hs)
  have hmany := Reader.many_of_all rfl (Reader.all_flatMap rfl htakes (Nat.le_refl _))
  rw [DistinguishedName.read, nameBytes, Element.takes_sequence hsequence rest]
  simp only [hmany, Option.bind_eq_bind, Option.bind_some, Option.pure_def, List.map_flatMap]
  rw [List.flatMap_def]

/-- The number of an alternative name can be written. -/
theorem InRange.number_lt {name : AlternativeName} (h : name.InRange) :
    name.element.number < 2 ^ 32 := by
  cases name with
  | directory sets => exact show 4 < 2 ^ 32 by decide
  | other e => exact h.1

/-- An alternative name is read from the element that it is written as. -/
theorem generalName?_element {name : AlternativeName} (hrange : name.InRange)
    (h : name.element.Fits) : Certificate.generalName? name.element = some name.generalName := by
  cases name with
  | other e => exact hrange.2
  | directory sets =>
    have hread := (takes_nameBytes hrange (Nat.le_of_lt h.length)).read_eq
    simp [Certificate.generalName?, element, hread, generalName]

end AlternativeName

/-- The content of the extension with the alternative names. -/
def alternativeBytes (names : List AlternativeName) : Bytes :=
  (Element.sequence (names.flatMap fun name => name.element.encode)).encode

/-- The names can be written, and are what they are taken for. -/
structure Writable (names : List AlternativeName) : Prop where
  inRange : ∀ name ∈ names, name.InRange
  length : (alternativeBytes names).length ≤ lengthLimit

/-- The names are read back in their order. -/
theorem Certificate.alternativeNames?_alternativeBytes {names : List AlternativeName}
    (h : Writable names) :
    alternativeNames? (alternativeBytes names) = some (names.map AlternativeName.generalName) := by
  have hsequence : (Element.sequence (names.flatMap fun name => name.element.encode)).Fits :=
    Element.fits_sequence_of_le h.length
  have hfits (name : AlternativeName) (hname : name ∈ names) : name.element.Fits := by
    have hlength := hsequence.length_part_le rfl hname
    exact Element.fits_of_length_le (h.inRange name hname).number_lt hlength
  have hall := Reader.all_flatMap rfl (fun name hname => Element.takes_encode (hfits name hname))
    (Nat.le_refl (names.flatMap fun name => name.element.encode).length)
  rw [alternativeNames?, alternativeBytes, (Element.takes_sequence hsequence).read_eq]
  simp only [hall, Option.bind_eq_bind, Option.bind_some]
  rw [mapM_eq_some, List.map_map, List.map_map]
  exact List.map_congr_left fun name hname =>
    AlternativeName.generalName?_element (h.inRange name hname) (hfits name hname)

end Attestation
