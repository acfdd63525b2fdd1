import Attestation.Proofs.Certificate.Names
import Attestation.Proofs.FirstFailure
import Attestation.Proofs.Tpm.Device

/-!
# Collecting the attributes of a device

All attributes of all directory names are gone through in their order (`Occurs`,
`TpmDevice.nameAttributes`), and only those of the three types matter (`deviceAttributes`). The
first of these that is not a text tells the error (`FirstFault`), whatever comes after it; if there
is none, the device is found exactly if each type occurs. `Certificate.tpmDevice_collects` is the
main statement. A value is a text by the number of its tag: as it is written it need not be a text
in UTF-8 (`WrittenAttribute.IsUtf8`), since a value of another class with this number is taken for
one (`Certificate.tpmDevice_of_context_text`).
-/

namespace Attestation

namespace TpmDevice

variable {names : List GeneralName} {as : List NameAttribute} {a : NameAttribute}

instance (a : NameAttribute) : Decidable (IsText a) :=
  inferInstanceAs (Decidable (_ ∧ _))

/-- The attribute occurs in one of the directory names. -/
def Occurs (names : List GeneralName) (a : NameAttribute) : Prop :=
  ∃ name, .directory name ∈ names ∧ a ∈ name

/-- The attributes that matter, in their order. -/
def deviceAttributes (names : List GeneralName) : List NameAttribute :=
  (nameAttributes names).filter fun a => attributeIds.contains a.id

/-- What keeps an attribute from being a text in UTF-8: it has another tag, or other bytes. -/
inductive AttributeFault (a : NameAttribute) : CertificateFault → Prop
  | tag : a.tag ≠ Der.TagNumber.utf8Text → AttributeFault a (.attributeTag a.tag)
  | text : a.tag = Der.TagNumber.utf8Text → a.value.toText? = none →
      AttributeFault a .attributeText

/-- The first attribute that matters and is not a text has the fault. -/
def FirstFault (as : List NameAttribute) (fault : CertificateFault) : Prop :=
  ∃ front a back, as = front ++ a :: back ∧ (∀ b ∈ front, b.id ∈ attributeIds → IsText b) ∧
    a.id ∈ attributeIds ∧ AttributeFault a fault

/-- An attribute is found in the directory names among the alternative names. -/
theorem mem_nameAttributes : a ∈ nameAttributes names ↔ Occurs names a := by
  rw [nameAttributes, List.mem_flatMap]
  refine ⟨fun h => ?_, fun h => ?_⟩
  · obtain ⟨name, hname, ha⟩ := h
    cases name with
    | directory name => exact ⟨name, hname, ha⟩
    | other => cases ha
  · obtain ⟨name, hname, ha⟩ := h
    exact ⟨_, hname, ha⟩

/-! ## Faults -/

/-- An attribute with a fault is no text. -/
theorem AttributeFault.not_isText {fault : CertificateFault} (h : AttributeFault a fault) :
    ¬IsText a := by
  rintro ⟨htag, htext⟩
  cases h with
  | tag hne => exact hne htag
  | text _ hnone =>
    rw [hnone] at htext
    cases htext

/-- An attribute has one fault at most. -/
theorem AttributeFault.unique {fault fault' : CertificateFault} (h : AttributeFault a fault)
    (h' : AttributeFault a fault') : fault = fault' := by
  cases h with
  | tag hne =>
    cases h' with
    | tag _ => rfl
    | text htag _ => exact absurd htag hne
  | text htag _ =>
    cases h' with
    | tag hne => exact absurd htag hne
    | text _ _ => rfl

/-- An attribute is a text or has a fault. -/
theorem isText_or_fault (a : NameAttribute) : IsText a ∨ ∃ fault, AttributeFault a fault := by
  by_cases htag : a.tag = Der.TagNumber.utf8Text
  · cases htext : a.value.toText? with
    | some s => exact .inl ⟨htag, by rw [htext]; rfl⟩
    | none => exact .inr ⟨_, .text htag htext⟩
  · exact .inr ⟨_, .tag htag⟩

/-- An attribute that matters has to be a text. -/
def attributeCheck (a : NameAttribute) : Check where
  Passes := a.id ∈ attributeIds → IsText a
  Fails e := a.id ∈ attributeIds ∧ ∃ fault, AttributeFault a fault ∧ e = .certificateInvalid fault
  not_fails := by
    rintro _ hpasses ⟨hid, _, hfault, -⟩
    exact hfault.not_isText (hpasses hid)
  unique := by
    rintro _ _ ⟨-, _, hfault, rfl⟩ ⟨-, _, hfault', rfl⟩
    rw [hfault.unique hfault']
  decided := by
    by_cases hid : a.id ∈ attributeIds
    · refine (isText_or_fault a).imp (fun h _ => h) fun ⟨fault, hfault⟩ => ?_
      exact ⟨_, hid, fault, hfault, rfl⟩
    · exact .inl fun h => absurd h hid

/-- Each of the attributes is collected after its check. -/
def attributeChecks (as : List NameAttribute) : List Check :=
  as.map attributeCheck

/-- At the end none of the attributes may be missing. -/
def completeCheck (as : List NameAttribute) : Check :=
  .require (∀ id ∈ attributeIds, ∃ a ∈ as, a.id = id) (.certificateInvalid .incompleteDevice)

/-! ## Collecting one attribute, and all of them -/

/-- An attribute that says nothing of the device is passed over. -/
theorem add_of_not_mem (found : Attributes) (h : a.id ∉ attributeIds) :
    found.add a = .ok found := by
  simp only [attributeIds, List.mem_cons, List.not_mem_nil, or_false, not_or] at h
  rw [Attributes.add, if_neg h.1, if_neg h.2.1, if_neg h.2.2]

/-- The value of an attribute of the device is checked when it is read. -/
theorem performs_attributeText (h : a.id ∈ attributeIds) :
    Performs [attributeCheck a] (attributeText a) := by
  rcases isText_or_fault a with htext | ⟨fault, hfault⟩
  · obtain ⟨s, hs⟩ := Option.isSome_iff_exists.1 htext.2
    rw [attributeText_eq_ok.2 ⟨htext.1, hs⟩]
    exact .of_passes fun _ => htext
  · have hfails : attributeText a = .error (.certificateInvalid fault) := by
      rw [attributeText, NameAttribute.text?]
      cases hfault with
      | tag hne => simp [Certificate.require, hne, bind, Except.bind]
      | text htag hnone =>
        simp [Certificate.require, Certificate.orFault, htag, hnone, bind, Except.bind]
    rw [hfails]
    exact .of_fails ⟨h, fault, hfault, rfl⟩

/-- An attribute is checked when it is added. -/
theorem performs_add (found : Attributes) (a : NameAttribute) :
    Performs [attributeCheck a] (found.add a) := by
  by_cases hid : a.id ∈ attributeIds
  · have htext := performs_attributeText hid
    unfold Attributes.add
    split
    · exact htext.bind fun s => .pure _
    split
    · exact htext.bind fun s => .pure _
    split
    · exact htext.bind fun s => .pure _
    · exact .of_passes fun _ => by simp_all [attributeIds]
  · rw [add_of_not_mem found hid]
    exact .of_passes fun h => absurd h hid

/-- The attributes are checked one after the other. -/
theorem performs_foldlM_add (as : List NameAttribute) (found : Attributes) :
    Performs (attributeChecks as) (as.foldlM Attributes.add found) := by
  induction as generalizing found with
  | nil => exact .pure found
  | cons a as ih =>
    rw [List.foldlM_cons]
    exact (performs_add found a).bind ih

/-- Attributes of other types are as if they were not there. -/
theorem foldlM_add_filter (as : List NameAttribute) (found : Attributes) :
    (as.filter fun a => attributeIds.contains a.id).foldlM Attributes.add found =
      as.foldlM Attributes.add found := by
  induction as generalizing found with
  | nil => rfl
  | cons a as ih =>
    by_cases hid : a.id ∈ attributeIds
    · rw [List.filter_cons_of_pos (by simpa using hid), List.foldlM_cons, List.foldlM_cons]
      exact congrArg (found.add a >>= ·) (funext ih)
    · rw [List.filter_cons_of_neg (by simpa using hid), List.foldlM_cons, add_of_not_mem found hid]
      exact ih found

/-- Only the attributes of the device matter. -/
theorem ofNames_congr {names' : List GeneralName}
    (h : deviceAttributes names' = deviceAttributes names) : ofNames names' = ofNames names := by
  rw [ofNames, ofNames, ← foldlM_add_filter (nameAttributes names'),
    ← foldlM_add_filter (nameAttributes names)]
  exact congrArg (fun as => as.foldlM Attributes.add {} >>= ofAttributes) h

/-! ## Completeness -/

/-- If the attributes that matter are texts, the last one of a type is missing only if all are. -/
theorem isSome_lastText? {id : Bytes} (hid : id ∈ attributeIds)
    (htexts : ∀ a ∈ as, a.id ∈ attributeIds → IsText a) :
    (lastText? id as).isSome ↔ ∃ a ∈ as, a.id = id := by
  rw [lastText?]
  cases hlast : (as.filter fun a => a.id == id).getLast? with
  | none =>
    refine iff_of_false Bool.false_ne_true ?_
    rintro ⟨a, ha, hida⟩
    have hmem : a ∈ as.filter fun a => a.id == id := List.mem_filter.2 ⟨ha, by simpa using hida⟩
    rw [List.getLast?_eq_none_iff.1 hlast] at hmem
    cases hmem
  | some a =>
    obtain ⟨ha, hida⟩ := List.mem_filter.1 (List.mem_of_getLast? hlast)
    have hida : a.id = id := by simpa using hida
    exact iff_of_true (htexts a ha (hida ▸ hid)).2 ⟨a, ha, hida⟩

/-- Three attributes make a device, and none of them may be missing. -/
theorem performs_ofAttributes (found : Attributes) :
    Performs [.require (found.manufacturer.isSome ∧ found.partNumber.isSome ∧
      found.firmwareVersion.isSome) (.certificateInvalid .incompleteDevice)]
      (ofAttributes found) := by
  unfold ofAttributes
  split
  · exact .of_passes ⟨rfl, rfl, rfl⟩
  · rename_i hne
    refine .of_fails ⟨fun ⟨hmanufacturer, hpartNumber, hfirmwareVersion⟩ => ?_, rfl⟩
    obtain ⟨m, hm⟩ := Option.isSome_iff_exists.1 hmanufacturer
    obtain ⟨p, hp⟩ := Option.isSome_iff_exists.1 hpartNumber
    obtain ⟨v, hv⟩ := Option.isSome_iff_exists.1 hfirmwareVersion
    refine hne m p v ?_
    rw [← hm, ← hp, ← hv]

/-- The checks of the attributes come before the check for missing ones. -/
theorem performs_ofNames (names : List GeneralName) :
    Performs (attributeChecks (nameAttributes names) ++ [completeCheck (nameAttributes names)])
      (ofNames names) := by
  rw [ofNames]
  refine (performs_foldlM_add _ _).append fun found hfound => ?_
  obtain ⟨htexts, rfl⟩ := foldlM_add_eq_ok.1 hfound
  have hsome {id : Bytes} (hid : id ∈ attributeIds) := isSome_lastText? hid htexts
  have hcomplete := performs_ofAttributes ((nameAttributes names).foldl Attributes.after {})
  simp only [foldl_after, foldl_replaceText, hsome (.head _), hsome (.tail _ (.head _)),
    hsome (.tail _ (.tail _ (.head _)))] at hcomplete
  rw [foldl_after]
  simpa only [completeCheck, attributeIds, List.forall_mem_cons, List.not_mem_nil, false_implies,
    implies_true, and_true, foldl_replaceText] using hcomplete

/-- All checks of attributes pass if those of the device are texts. -/
theorem forall_attributeChecks :
    (∀ check ∈ attributeChecks as, check.Passes) ↔ ∀ a ∈ as, a.id ∈ attributeIds → IsText a :=
  List.forall_mem_map

/-- The first failing check of attributes is the first fault among those of the device. -/
theorem firstFailure_attributeChecks {e : Error} :
    FirstFailure (attributeChecks as) e ↔
      ∃ fault, FirstFault as fault ∧ e = .certificateInvalid fault := by
  rw [attributeChecks, FirstFailure.map_iff]
  refine ⟨fun h => ?_, fun h => ?_⟩
  · obtain ⟨front, a, back, has, hfront, hid, fault, hfault, he⟩ := h
    exact ⟨fault, ⟨front, a, back, has, hfront, hid, hfault⟩, he⟩
  · obtain ⟨fault, ⟨front, a, back, has, hfront, hid, hfault⟩, he⟩ := h
    exact ⟨front, a, back, has, hfront, hid, fault, hfault, he⟩

/-- No device is found for the first attribute that matters and is not a text, or, if there is none,
for a type that does not occur. -/
theorem ofNames_eq_error {e : Error} : ofNames names = .error e ↔
    (∃ fault, FirstFault (nameAttributes names) fault ∧ e = .certificateInvalid fault) ∨
      (∀ a ∈ nameAttributes names, a.id ∈ attributeIds → IsText a) ∧
        (∃ id ∈ attributeIds, ∀ a ∈ nameAttributes names, a.id ≠ id) ∧
        e = .certificateInvalid .incompleteDevice := by
  have hsingle : FirstFailure [completeCheck (nameAttributes names)] e ↔
      (∃ id ∈ attributeIds, ∀ a ∈ nameAttributes names, a.id ≠ id) ∧
        e = .certificateInvalid .incompleteDevice := by
    rw [FirstFailure.singleton_iff]
    simp [completeCheck, Check.require]
  rw [(performs_ofNames names).eq_error_iff, FirstFailure.append_iff, firstFailure_attributeChecks,
    forall_attributeChecks, hsingle]

/-- Names give a device exactly if each of the three attributes occurs and all of those that occur
are texts. -/
theorem exists_ofNames_eq_ok : (∃ d, ofNames names = .ok d) ↔
    (∀ id ∈ attributeIds, ∃ a ∈ nameAttributes names, a.id = id) ∧
      ∀ a ∈ nameAttributes names, a.id ∈ attributeIds → IsText a := by
  rw [(performs_ofNames names).exists_ok_iff, List.forall_mem_append, forall_attributeChecks,
    List.forall_mem_singleton, and_comm]
  rfl

/-! ## Written attributes -/

end TpmDevice

open TpmDevice

/-- The value of the attribute is written as a text in UTF-8. -/
def WrittenAttribute.IsUtf8 (w : WrittenAttribute) : Prop :=
  w.value.tagClass = .universal ∧ w.value.number = Der.TagNumber.utf8Text ∧
    w.value.content.toText?.isSome

/-- The attributes of all the names, in their order. -/
def writtenAttributes (names : List AlternativeName) : List WrittenAttribute :=
  names.flatMap AlternativeName.attributes

/-- The attributes that are read from names are those that were written, in their order. -/
theorem nameAttributes_generalName (names : List AlternativeName) :
    nameAttributes (names.map AlternativeName.generalName) =
      (writtenAttributes names).map WrittenAttribute.asRead := by
  rw [nameAttributes, writtenAttributes, List.flatMap_map, List.map_flatMap]
  congr 1
  funext name
  cases name <;> rfl

namespace Certificate

variable {c : Certificate} {names : List GeneralName}

/-- The device of a certificate is the one of its alternative names. -/
theorem tpmDevice_of_names (h : c.alternativeNames = .ok (some names)) :
    c.tpmDevice = ofNames names := by
  rw [tpmDevice, h]
  rfl

/-- The certificate has one extension with alternative names, which are the written ones. -/
def HasNames (c : Certificate) (written : List AlternativeName) : Prop :=
  Writable written ∧
    ∃ e, c.extensionsOf alternativeNamesId = [e] ∧ e.content = alternativeBytes written

/-- The alternative names that were written are those that are read. -/
theorem HasNames.alternativeNames {written : List AlternativeName} (h : c.HasNames written) :
    c.alternativeNames = .ok (some (written.map AlternativeName.generalName)) := by
  obtain ⟨hwritable, e, he, hcontent⟩ := h
  refine alternativeNames_eq_some.2 ⟨e, he, ?_⟩
  rw [hcontent]
  exact alternativeNames?_alternativeBytes hwritable

/-- A device is found exactly if all types are written and the values that matter have the number
of texts and their contents are in UTF-8. -/
theorem HasNames.exists_tpmDevice {written : List AlternativeName} (h : c.HasNames written) :
    (∃ d, c.tpmDevice = .ok d) ↔
      (∀ id ∈ attributeIds, ∃ w ∈ writtenAttributes written, w.id = id) ∧
        ∀ w ∈ writtenAttributes written, w.id ∈ attributeIds → IsText w.asRead := by
  have hexists (id : Bytes) :
      (∃ a ∈ (writtenAttributes written).map WrittenAttribute.asRead, a.id = id) ↔
        ∃ w ∈ writtenAttributes written, w.id = id := by
    refine ⟨fun ⟨a, ha, hid⟩ => ?_, fun ⟨w, hw, hid⟩ => ⟨_, List.mem_map_of_mem hw, hid⟩⟩
    obtain ⟨w, hw, rfl⟩ := List.mem_map.1 ha
    exact ⟨w, hw, hid⟩
  rw [tpmDevice_of_names h.alternativeNames, exists_ofNames_eq_ok, nameAttributes_generalName]
  simp only [hexists, List.forall_mem_map]
  rfl

/-- Of a certificate with alternative names, a device is found exactly if each of the three types
occurs in a directory name and all their occurrences are texts, by the numbers of their tags. The
parts of the device are the last ones of their types, and whatever else the names hold does not
matter. Otherwise the error is that of the first occurrence that is not a text, and, if there is
none, that something is missing. For names as they are written, a device is found exactly if all
occurrences are texts in UTF-8 and no type is missing, unless one is found although a value that
matters is of another class. -/
theorem tpmDevice_collects (c : Certificate) (names : List GeneralName)
    (h : c.alternativeNames = .ok (some names)) :
    ((∃ d, c.tpmDevice = .ok d) ↔
      (∀ id ∈ attributeIds, ∃ a, Occurs names a ∧ a.id = id) ∧
        ∀ a, Occurs names a → a.id ∈ attributeIds → IsText a) ∧
    (∀ d, c.tpmDevice = .ok d →
      lastText? manufacturerId (nameAttributes names) = some d.manufacturer ∧
        lastText? modelId (nameAttributes names) = some d.partNumber ∧
        lastText? versionId (nameAttributes names) = some d.firmwareVersion) ∧
    (∀ (c' : Certificate) names', c'.alternativeNames = .ok (some names') →
      deviceAttributes names' = deviceAttributes names → c'.tpmDevice = c.tpmDevice) ∧
    (∀ e, c.tpmDevice = .error e ↔
      (∃ fault, FirstFault (nameAttributes names) fault ∧ e = .certificateInvalid fault) ∨
        (∀ a, Occurs names a → a.id ∈ attributeIds → IsText a) ∧
          (∃ id ∈ attributeIds, ∀ a, Occurs names a → a.id ≠ id) ∧
          e = .certificateInvalid .incompleteDevice) ∧
    ∀ written, c.HasNames written →
      (((∃ d, c.tpmDevice = .ok d) ↔
          (∀ id ∈ attributeIds, ∃ w ∈ writtenAttributes written, w.id = id) ∧
            ∀ w ∈ writtenAttributes written, w.id ∈ attributeIds → w.IsUtf8) ↔
        ((∃ d, c.tpmDevice = .ok d) → ∀ w ∈ writtenAttributes written, w.id ∈ attributeIds →
          w.value.tagClass = .universal)) := by
  have hc := tpmDevice_of_names h
  simp only [← mem_nameAttributes]
  refine ⟨?_, fun d hd => ?_, fun c' names' h' hnames => ?_, fun e => ?_,
    fun written hwritten => ?_⟩
  · rw [hc]
    exact exists_ofNames_eq_ok
  · have htold := ofNames_eq_ok.1 (hc.symm.trans hd)
    exact ⟨htold.manufacturer, htold.partNumber, htold.firmwareVersion⟩
  · rw [hc, tpmDevice_of_names h']
    exact ofNames_congr hnames
  · rw [hc]
    exact ofNames_eq_error
  -- Names that were written keep the class of their values, which the device is found without.
  · rw [hwritten.exists_tpmDevice]
    refine ⟨fun hmeets hfound w hw hid => ((hmeets.1 hfound).2 w hw hid).1, fun hclass => ?_⟩
    refine ⟨fun hfound => ⟨hfound.1, fun w hw hid => ?_⟩, fun hmeets => ⟨hmeets.1, ?_⟩⟩
    · exact ⟨hclass hfound w hw hid, hfound.2 w hw hid⟩
    · exact fun w hw hid => (hmeets.2 w hw hid).2

namespace AttributesSample

/-- A directory name with the attributes, each in its own set, whose values are of the given
class. -/
def directory (valueClass : Der.TagClass) (as : List NameAttribute) : AlternativeName :=
  .directory (as.map fun a => ⟨⟨a.id, ⟨valueClass, false, a.tag, a.value⟩⟩, []⟩)

/-- The name of a host. -/
def host : AlternativeName :=
  .other ⟨.contextSpecific, false, 2, Bytes.ofText "host"⟩

/-- A certificate with the alternative names. -/
def certificate (names : List AlternativeName) : Certificate where
  version := 2
  subject := []
  keyAlgorithm := []
  keyParameters := none
  keyBits := []
  extensions := [⟨alternativeNamesId, false, alternativeBytes names⟩]

/-- A certificate can be written with any names that fit. -/
theorem certificate_hasNames {names : List AlternativeName} (h : Writable names) :
    (certificate names).HasNames names :=
  ⟨h, _, rfl, rfl⟩

/-- An attribute in UTF-8. -/
def text (id : Bytes) (s : String) : NameAttribute :=
  ⟨id, Der.TagNumber.utf8Text, Bytes.ofText s⟩

/-- Attributes of a device without a model. -/
def first : List NameAttribute :=
  [text manufacturerId "a", ⟨NameAttribute.commonName, Der.TagNumber.printableText, [0xff]⟩,
    text versionId "1"]

/-- Attributes that complete the device, and replace one. -/
def second : List NameAttribute :=
  [text modelId "b", text manufacturerId "c"]

/-- A model that is no UTF-8, and a manufacturer of another tag. -/
def faulty : List NameAttribute :=
  [⟨modelId, Der.TagNumber.utf8Text, [0xff]⟩, ⟨manufacturerId, Der.TagNumber.printableText, []⟩]

/-- Two names that tell a device together. -/
def bothNames (valueClass : Der.TagClass) : List AlternativeName :=
  [directory valueClass first, host, directory valueClass second]

/-- What is read of these names, if the values are texts. -/
def bothAttributes : List NameAttribute :=
  nameAttributes ((bothNames .universal).map AlternativeName.generalName)

/-- The names of a device fit, whatever the class of the last value is. -/
theorem writable_bothNames (valueClass : Der.TagClass) : Writable (bothNames valueClass) := by
  cases valueClass <;> exact ⟨by decide +kernel, by decide +kernel⟩

/-- Names with two faults. -/
def faultyNames : List AlternativeName :=
  [first, faulty, second].map (directory .universal)

/-- Names with a fault in each of two attributes fit. -/
theorem writable_faultyNames : Writable faultyNames :=
  ⟨by decide +kernel, by decide +kernel⟩

end AttributesSample

open AttributesSample (certificate certificate_hasNames first bothNames bothAttributes
  writable_bothNames faultyNames writable_faultyNames)

/-- A device in two names, of which the second replaces a part; the same where the values are of
another class, so that they are no texts in UTF-8; and names with two faults, of which the first is
told. -/
theorem tpmDevice_collects_samples :
    (certificate (bothNames .universal)).tpmDevice = .ok ⟨"c", "b", "1"⟩ ∧
    (¬((∃ d, (certificate (bothNames .contextSpecific)).tpmDevice = .ok d) ↔
      (∀ id ∈ attributeIds, ∃ w ∈ writtenAttributes (bothNames .contextSpecific), w.id = id) ∧
        ∀ w ∈ writtenAttributes (bothNames .contextSpecific), w.id ∈ attributeIds →
          w.IsUtf8)) ∧
    (certificate faultyNames).tpmDevice = .error (.certificateInvalid .attributeText) := by
  have hnames (valueClass : Der.TagClass) :=
    certificate_hasNames (writable_bothNames valueClass)
  have hfaulty := certificate_hasNames writable_faultyNames
  refine ⟨?_, fun hmeets => ?_, ?_⟩
  · obtain ⟨hok, hparts, -⟩ := tpmDevice_collects _ _ (hnames .universal).alternativeNames
    simp only [← mem_nameAttributes] at hok
    obtain ⟨⟨manufacturer, partNumber, firmwareVersion⟩, hd⟩ := hok.2 (by decide +kernel)
    obtain ⟨hmanufacturer, hpartNumber, hfirmwareVersion⟩ := hparts _ hd
    have hlast : lastText? manufacturerId bothAttributes = some "c" ∧
        lastText? modelId bothAttributes = some "b" ∧
        lastText? versionId bothAttributes = some "1" := by decide +kernel
    cases hlast.1.symm.trans hmanufacturer
    cases hlast.2.1.symm.trans hpartNumber
    cases hlast.2.2.symm.trans hfirmwareVersion
    exact hd
  · obtain ⟨hok, -, -, -, hclass⟩ :=
      tpmDevice_collects _ _ (hnames .contextSpecific).alternativeNames
    simp only [← mem_nameAttributes] at hok
    have hfound := hok.2 (by decide +kernel)
    have huniversal := (hclass _ (hnames .contextSpecific)).1 hmeets hfound
    revert huniversal
    decide +kernel
  · obtain ⟨-, -, -, herror, -⟩ := tpmDevice_collects _ _ hfaulty.alternativeNames
    exact (herror _).2 (.inl ⟨_, ⟨first, _, _, rfl, by decide +kernel, by decide +kernel,
      .text rfl (by decide +kernel)⟩, rfl⟩)

/-- A device whose parts are no texts in UTF-8, but have the number of such texts in another
class. -/
theorem tpmDevice_of_context_text :
    (certificate (bothNames .contextSpecific)).tpmDevice = .ok ⟨"c", "b", "1"⟩ ∧
      ∀ w ∈ writtenAttributes (bothNames .contextSpecific),
        w.value.tagClass = .contextSpecific := by
  decide +kernel

end Certificate

end Attestation
