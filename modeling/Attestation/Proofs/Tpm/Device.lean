import Attestation.Proofs.Certificate.Extension
import Attestation.Tpm.Device

/-!
# Devices in certificates of attestation keys

The attributes of all the directory names of a subject tell a device together (`TpmDevice.Told`):
whichever of them is of one of the three types has to be a text, and of each type the last one
counts. `TpmDevice.ofNames` finds exactly the device that is told (`ofNames_eq_ok`), and
`Certificate.checkAttestationKey` accepts exactly the certificates that meet the requirements of
`Certificate.IsAttestationKey` (`checkAttestationKey_eq_ok`). It asks the policy once, between two
parts that do not depend on it (`checkAttestationKey_eq`), and only about the device of a
certificate that is in order so far (`Certificate.AsksAbout`).
-/

namespace Attestation

namespace TpmDevice

/-- The types of the attributes of a device. -/
def attributeIds : List Bytes :=
  [manufacturerId, modelId, versionId]

/-- The text of the last attribute of the given type. -/
def lastText? (id : Bytes) (as : List NameAttribute) : Option String :=
  (as.filter fun a => a.id == id).getLast?.bind fun a => a.value.toText?

/-- The attribute is a text in UTF-8. -/
def IsText (a : NameAttribute) : Prop :=
  a.tag = Der.TagNumber.utf8Text ∧ a.value.toText?.isSome

/-- The attributes of a device are all texts, and the last ones of their types are the parts of the
device. -/
structure Told (as : List NameAttribute) (d : TpmDevice) : Prop where
  texts : ∀ a ∈ as, a.id ∈ attributeIds → IsText a
  manufacturer : lastText? manufacturerId as = some d.manufacturer
  partNumber : lastText? modelId as = some d.partNumber
  firmwareVersion : lastText? versionId as = some d.firmwareVersion

/-! ## Collecting the attributes -/

/-- The text of an attribute of the given type replaces the one that was found before. -/
def replaceText (id : Bytes) (found : Option String) (a : NameAttribute) : Option String :=
  if a.id = id then a.value.toText? else found

/-- The attributes that are found after one more attribute, if it is a text where that matters. -/
def Attributes.after (found : Attributes) (a : NameAttribute) : Attributes :=
  ⟨replaceText manufacturerId found.manufacturer a, replaceText modelId found.partNumber a,
    replaceText versionId found.firmwareVersion a⟩

/-- An attribute is a text if it has the tag of one and its value is UTF-8. -/
theorem attributeText_eq_ok {a : NameAttribute} {s : String} :
    attributeText a = .ok s ↔ a.tag = Der.TagNumber.utf8Text ∧ a.value.toText? = some s := by
  rw [attributeText, bind_eq_ok]
  refine ⟨fun h => ?_, fun h => ?_⟩
  · rcases h with ⟨_, htag, htext⟩
    have htag : a.tag = Der.TagNumber.utf8Text := by simpa using htag
    have htext := Certificate.orFault_eq_ok.1 htext
    rw [NameAttribute.text?, if_pos (by rw [htag]; decide)] at htext
    exact ⟨htag, htext⟩
  · rcases h with ⟨htag, htext⟩
    refine ⟨(), by simpa using htag, Certificate.orFault_eq_ok.2 ?_⟩
    rw [NameAttribute.text?, if_pos (by rw [htag]; decide), htext]

/-- One of the branches of `Attributes.add`. -/
theorem map_attributeText_eq_ok {a : NameAttribute} {f : Option String → Attributes}
    {found : Attributes} :
    (do return f (some (← attributeText a)) : Result Attributes) = .ok found ↔
      IsText a ∧ found = f a.value.toText? := by
  rw [bind_eq_ok]
  refine ⟨fun h => ?_, fun h => ?_⟩
  · rcases h with ⟨s, hs, hfound⟩
    obtain ⟨htag, htext⟩ := attributeText_eq_ok.1 hs
    rw [← pure_eq_ok.1 hfound, ← htext]
    exact ⟨⟨htag, by rw [htext]; rfl⟩, rfl⟩
  · rcases h with ⟨⟨htag, hsome⟩, rfl⟩
    obtain ⟨s, hs⟩ := Option.isSome_iff_exists.1 hsome
    exact ⟨s, attributeText_eq_ok.2 ⟨htag, hs⟩, by rw [hs]; rfl⟩

/-- An attribute can be added if it is a text or says nothing of the device. -/
theorem add_eq_ok {found found' : Attributes} {a : NameAttribute} :
    found.add a = .ok found' ↔
      (a.id ∈ attributeIds → IsText a) ∧ found' = found.after a := by
  unfold Attributes.add
  split
  · rename_i hid
    rw [map_attributeText_eq_ok (f := fun s => { found with manufacturer := s })]
    simp [Attributes.after, replaceText, attributeIds, hid, manufacturerId, modelId, versionId]
  split
  · rename_i hid
    rw [map_attributeText_eq_ok (f := fun s => { found with partNumber := s })]
    simp [Attributes.after, replaceText, attributeIds, hid, manufacturerId, modelId, versionId]
  split
  · rename_i hid
    rw [map_attributeText_eq_ok (f := fun s => { found with firmwareVersion := s })]
    simp [Attributes.after, replaceText, attributeIds, hid, manufacturerId, modelId, versionId]
  · rename_i hmanufacturer hmodel hversion
    simp only [Except.ok.injEq, attributeIds, List.mem_cons, List.not_mem_nil, hmanufacturer,
      hmodel, hversion, or_self, false_implies, true_and, Attributes.after, replaceText, if_false]
    exact eq_comm

/-- Attributes can be added if all those of the device are texts, and a later one replaces an
earlier one. -/
theorem foldlM_add_eq_ok {as : List NameAttribute} {found found' : Attributes} :
    as.foldlM Attributes.add found = .ok found' ↔
      (∀ a ∈ as, a.id ∈ attributeIds → IsText a) ∧ found' = as.foldl Attributes.after found := by
  induction as generalizing found with
  | nil =>
    rw [List.foldlM_nil, pure_eq_ok, eq_comm]
    simp
  | cons a as ih =>
    rw [List.foldlM_cons, bind_eq_ok, List.forall_mem_cons, List.foldl_cons]
    refine ⟨fun h => ?_, fun h => ?_⟩
    · rcases h with ⟨next, hnext, hrest⟩
      obtain ⟨ha, rfl⟩ := add_eq_ok.1 hnext
      obtain ⟨has, rfl⟩ := ih.1 hrest
      exact ⟨⟨ha, has⟩, rfl⟩
    · rcases h with ⟨⟨ha, has⟩, rfl⟩
      exact ⟨_, add_eq_ok.2 ⟨ha, rfl⟩, ih.2 ⟨has, rfl⟩⟩

/-- The attributes are collected type by type. -/
theorem foldl_after (as : List NameAttribute) (found : Attributes) :
    as.foldl Attributes.after found =
      ⟨as.foldl (replaceText manufacturerId) found.manufacturer,
        as.foldl (replaceText modelId) found.partNumber,
        as.foldl (replaceText versionId) found.firmwareVersion⟩ := by
  induction as generalizing found with
  | nil => rfl
  | cons a as ih => exact ih _

/-- Of each type the last attribute is left. -/
theorem foldl_replaceText (id : Bytes) (as : List NameAttribute) :
    as.foldl (replaceText id) none = lastText? id as := by
  suffices h : ∀ found, as.foldl (replaceText id) found =
      ((as.filter fun a => a.id == id).getLast?.map fun a => a.value.toText?).getD found by
    rw [h none, lastText?]
    cases (as.filter fun a => a.id == id).getLast? <;> rfl
  induction as with
  | nil => exact fun _ => rfl
  | cons a as ih =>
    intro found
    rw [List.foldl_cons, ih]
    by_cases h : a.id = id
    · simp only [replaceText, h, if_true, List.filter_cons, beq_self_eq_true, List.getLast?_cons]
      cases (as.filter fun a => a.id == id).getLast? <;> rfl
    · simp [replaceText, h]

/-- Attributes make a device if none of the three is missing. -/
theorem ofAttributes_eq_ok {found : Attributes} {d : TpmDevice} :
    ofAttributes found = .ok d ↔ found = ⟨d.manufacturer, d.partNumber, d.firmwareVersion⟩ := by
  obtain ⟨manufacturer, partNumber, firmwareVersion⟩ := d
  unfold ofAttributes
  split <;> simp_all

/-- The device that is found is the one that the attributes tell. -/
theorem ofNames_eq_ok {names : List GeneralName} {d : TpmDevice} :
    ofNames names = .ok d ↔ Told (nameAttributes names) d := by
  rw [ofNames, bind_eq_ok]
  refine ⟨fun h => ?_, fun h => ?_⟩
  · rcases h with ⟨found, hfound, hd⟩
    obtain ⟨htexts, rfl⟩ := foldlM_add_eq_ok.1 hfound
    have hparts := ofAttributes_eq_ok.1 hd
    rw [foldl_after, Attributes.mk.injEq] at hparts
    simp only [foldl_replaceText] at hparts
    exact ⟨htexts, hparts.1, hparts.2.1, hparts.2.2⟩
  · rcases h with ⟨htexts, hmanufacturer, hpartNumber, hfirmwareVersion⟩
    refine ⟨_, foldlM_add_eq_ok.2 ⟨htexts, rfl⟩, ofAttributes_eq_ok.2 ?_⟩
    rw [foldl_after, Attributes.mk.injEq]
    simp only [foldl_replaceText]
    exact ⟨hmanufacturer, hpartNumber, hfirmwareVersion⟩

end TpmDevice

namespace Certificate

/-- The requirements on the certificate of an attestation key: version 3, no subject, a welcome
device in the only alternative names, the purpose of certifying an attestation key in the only
extended key usage, and no authority. -/
structure IsAttestationKey (policy : TpmDevicePolicy) (c : Certificate) : Prop where
  version : c.version = 2
  subject : c.subject = []
  device : ∃ e names device, c.extensionsOf alternativeNamesId = [e] ∧
    alternativeNames? e.content = some names ∧
    TpmDevice.Told (TpmDevice.nameAttributes names) device ∧ policy device = .ok ()
  usage : ∃ e usages, c.extensionsOf keyUsageId = [e] ∧ usages? e.content = some usages ∧
    attestationKeyUsage ∈ usages
  notAuthority : c.NotAuthority

/-- A device passes if the policy accepts it. -/
theorem policy_check_eq_ok {policy : TpmDevicePolicy} {device : TpmDevice} {u : Unit} :
    policy.check device = .ok u ↔ policy device = .ok () := by
  unfold TpmDevicePolicy.check
  split <;> simp_all

/-- The device is told by the only alternative names of the certificate. -/
def TellsDevice (c : Certificate) (d : TpmDevice) : Prop :=
  ∃ e names, c.extensionsOf alternativeNamesId = [e] ∧
    alternativeNames? e.content = some names ∧
    TpmDevice.Told (TpmDevice.nameAttributes names) d

/-- The device of a certificate is the one that its alternative names tell. -/
theorem tpmDevice_eq_ok {c : Certificate} {d : TpmDevice} :
    c.tpmDevice = .ok d ↔ c.TellsDevice d := by
  rw [tpmDevice, bind_eq_ok]
  refine ⟨fun h => ?_, fun h => ?_⟩
  · rcases h with ⟨found, hfound, hrest⟩
    obtain ⟨names, hnames, hd⟩ := bind_eq_ok.1 hrest
    obtain rfl := orFault_eq_ok.1 hnames
    obtain ⟨e, he, hdecode⟩ := alternativeNames_eq_some.1 hfound
    exact ⟨e, names, he, hdecode, TpmDevice.ofNames_eq_ok.1 hd⟩
  · rcases h with ⟨e, names, he, hdecode, hd⟩
    exact ⟨some names, alternativeNames_eq_some.2 ⟨e, he, hdecode⟩,
      bind_eq_ok.2 ⟨names, rfl, TpmDevice.ofNames_eq_ok.2 hd⟩⟩

/-- A certificate tells at most one device. -/
theorem TellsDevice.unique {c : Certificate} {d d' : TpmDevice} (h : c.TellsDevice d)
    (h' : c.TellsDevice d') : d = d' :=
  Except.ok.inj ((tpmDevice_eq_ok.2 h).symm.trans (tpmDevice_eq_ok.2 h'))

/-! ## Before and after the policy is asked -/

/-- What is required before the policy is asked about the device. -/
structure AsksAbout (c : Certificate) (d : TpmDevice) : Prop where
  version : c.version = 2
  subject : c.subject = []
  device : c.TellsDevice d

/-- What is required after the policy has been asked: the purpose of certifying an attestation key,
and no authority. -/
structure HasPurpose (c : Certificate) : Prop where
  usage : ∃ e usages, c.extensionsOf keyUsageId = [e] ∧ usages? e.content = some usages ∧
    attestationKeyUsage ∈ usages
  notAuthority : c.NotAuthority

/-- The checks before the policy is asked, and the device that it is asked about. -/
def askedDevice (c : Certificate) : Result TpmDevice := do
  c.requireVersion3
  require c.subject.isEmpty .subjectNotEmpty
  c.tpmDevice

/-- The checks after the policy has been asked. -/
def checkPurpose (c : Certificate) : Result Unit := do
  let usages ← orFault .noKeyUsage (← c.usages)
  require (usages.contains attestationKeyUsage) .noAikUsage
  c.requireNotAuthority

/-- The policy is asked once. -/
theorem checkAttestationKey_eq (policy : TpmDevicePolicy) (c : Certificate) :
    c.checkAttestationKey policy =
      c.askedDevice >>= fun device => policy.check device >>= fun _ => c.checkPurpose := by
  simp only [askedDevice, bind_assoc]
  rfl

/-- The policy is asked about the device that the certificate tells, if version and subject are as
they should be. -/
theorem askedDevice_eq_ok {c : Certificate} {d : TpmDevice} :
    c.askedDevice = .ok d ↔ c.AsksAbout d := by
  refine ⟨fun h => ?_, fun h => ?_⟩
  · obtain ⟨_, hversion, h₁⟩ := bind_eq_ok.1 h
    obtain ⟨_, hsubject, hdevice⟩ := bind_eq_ok.1 h₁
    exact ⟨requireVersion3_eq_ok.1 hversion, by simpa using hsubject, tpmDevice_eq_ok.1 hdevice⟩
  · refine bind_eq_ok.2 ⟨(), requireVersion3_eq_ok.2 h.version, ?_⟩
    refine bind_eq_ok.2 ⟨(), require_eq_ok.2 (by simpa using h.subject), ?_⟩
    exact tpmDevice_eq_ok.2 h.device

/-- A certificate has its purpose if its key usages list the one of attestation keys and it is not
the certificate of an authority. -/
theorem checkPurpose_eq_ok {c : Certificate} {u : Unit} :
    c.checkPurpose = .ok u ↔ c.HasPurpose := by
  refine ⟨fun h => ?_, fun h => ?_⟩
  · obtain ⟨found, hfound, h₁⟩ := bind_eq_ok.1 h
    obtain ⟨usages, husages, h₂⟩ := bind_eq_ok.1 h₁
    obtain ⟨_, husage, hauthority⟩ := bind_eq_ok.1 h₂
    obtain rfl := orFault_eq_ok.1 husages
    obtain ⟨e, he, hdecode⟩ := usages_eq_some.1 hfound
    exact ⟨⟨e, usages, he, hdecode, by simpa using husage⟩, requireNotAuthority_eq_ok.1 hauthority⟩
  · rcases h with ⟨⟨e, usages, he, hdecode, husage⟩, hauthority⟩
    refine bind_eq_ok.2 ⟨some usages, usages_eq_some.2 ⟨e, he, hdecode⟩, ?_⟩
    refine bind_eq_ok.2 ⟨usages, rfl, ?_⟩
    refine bind_eq_ok.2 ⟨(), require_eq_ok.2 (by simpa using husage), ?_⟩
    exact requireNotAuthority_eq_ok.2 hauthority

/-- The requirements are those before the policy is asked, its answer, and those after it. -/
theorem isAttestationKey_iff {policy : TpmDevicePolicy} {c : Certificate} :
    c.IsAttestationKey policy ↔ ∃ d, c.AsksAbout d ∧ policy d = .ok () ∧ c.HasPurpose := by
  refine ⟨fun h => ?_, fun h => ?_⟩
  · rcases h with ⟨hversion, hsubject, ⟨e, names, d, he, hnames, htold, hpolicy⟩, husage,
      hauthority⟩
    exact ⟨d, ⟨hversion, hsubject, e, names, he, hnames, htold⟩, hpolicy, husage, hauthority⟩
  · rcases h with ⟨d, ⟨hversion, hsubject, e, names, he, hnames, htold⟩, hpolicy, husage,
      hauthority⟩
    exact ⟨hversion, hsubject, ⟨e, names, d, he, hnames, htold, hpolicy⟩, husage, hauthority⟩

/-- The certificates that are accepted are the ones that meet the requirements. -/
theorem checkAttestationKey_eq_ok {policy : TpmDevicePolicy} {c : Certificate} {u : Unit} :
    c.checkAttestationKey policy = .ok u ↔ c.IsAttestationKey policy := by
  rw [checkAttestationKey_eq, isAttestationKey_iff, bind_eq_ok]
  refine exists_congr fun d => and_congr askedDevice_eq_ok ?_
  rw [bind_eq_ok]
  simp only [policy_check_eq_ok, checkPurpose_eq_ok, exists_const]

end Certificate

end Attestation
