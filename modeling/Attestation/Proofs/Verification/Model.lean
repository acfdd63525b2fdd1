import Attestation.Proofs.Verification.Packed
import Attestation.Proofs.Verification.Tpm

/-!
# Certificates that name a model more than once

An extension of a certificate is looked up in two ways. Of the basic constraints, the purposes and
the alternative names there may be one only (`soleExtension`), and of the extensions that name a
model the first one counts (`extension?`). The lookups differ where a type repeats
(`exists_soleExtension_eq_ok`). So a certificate that a check of the model lets pass names this
model in all of its extensions exactly if it does in those after the first, which the checks do not
read (`every_model_checked_iff`).
-/

namespace Attestation

/-- The extension is an octet string of sixteen bytes, and these are the given ones. -/
def CertificateExtension.Names (e : CertificateExtension) (aaguid : Bytes) : Prop :=
  Der.Value.read e.content = some (.octets aaguid, []) ∧ aaguid.length = 16

namespace Certificate

/-- The extensions of the given type after the first one. -/
def laterExtensionsOf (c : Certificate) (id : Bytes) : List CertificateExtension :=
  (c.extensionsOf id).tail

/-- The certificates differ at most in the extensions of the given type after the first one, and in
the places of the extensions of this type among the others. -/
structure AgreesBut (id : Bytes) (c c' : Certificate) : Prop where
  rest : c' = { c with extensions := c'.extensions }
  first : c'.extension? id = c.extension? id
  others : (c'.extensions.filter fun e => e.id != id) = c.extensions.filter fun e => e.id != id

section
variable {c c' : Certificate} {id : Bytes} {fault : CertificateFault}

/-! ## The two lookups -/

/-- An extension that is looked up is the first one with its identifier. -/
theorem extension?_eq_head? (c : Certificate) (id : Bytes) :
    c.extension? id = (c.extensionsOf id).head? :=
  (List.head?_filter ..).symm

/-- The lookup that refuses a repeated type answers if the type is not repeated, and then as the
other one does. -/
theorem soleExtension_eq_ok {found : Option CertificateExtension} :
    c.soleExtension id fault = .ok found ↔
      c.laterExtensionsOf id = [] ∧ c.extension? id = found := by
  rw [extension?_eq_head?, laterExtensionsOf]
  cases found with
  | none =>
    rw [soleExtension_eq_none]
    cases c.extensionsOf id <;> simp
  | some e =>
    rw [soleExtension_eq_some]
    cases c.extensionsOf id <;> simp [and_comm]

/-- The two lookups differ exactly where the type repeats. -/
theorem exists_soleExtension_eq_ok :
    (∃ found, c.soleExtension id fault = .ok found) ↔ c.laterExtensionsOf id = [] := by
  simp only [soleExtension_eq_ok, exists_and_left, exists_eq', and_true]

/-- What holds of the first extension holds of all if it holds of the later ones. -/
theorem forall_extensionsOf_iff {p : CertificateExtension → Prop}
    (hfirst : ∀ e, c.extension? id = some e → p e) :
    (∀ e ∈ c.extensionsOf id, p e) ↔ ∀ e ∈ c.laterExtensionsOf id, p e := by
  rw [extension?_eq_head?] at hfirst
  unfold laterExtensionsOf
  cases h : c.extensionsOf id with
  | nil => simp
  | cons first later =>
    have hfirst : p first := hfirst first (by rw [h, List.head?_cons])
    simp [hfirst]

/-! ## What the checks do not read -/

/-- Certificates that agree but for an extension have the same version. -/
theorem AgreesBut.version_eq (h : AgreesBut id c c') : c'.version = c.version := by
  rw [h.rest]

/-- Certificates that agree but for an extension have the same subject. -/
theorem AgreesBut.subject_eq (h : AgreesBut id c c') : c'.subject = c.subject := by
  rw [h.rest]

/-- The extensions of a type are among those that are not of another one. -/
theorem filter_others {id' : Bytes} (hne : id' ≠ id) (es : List CertificateExtension) :
    ((es.filter fun e => e.id != id).filter fun e => e.id == id') =
      es.filter fun e => e.id == id' := by
  rw [List.filter_filter]
  refine List.filter_congr fun e _ => ?_
  cases heq : e.id == id' with
  | false => rfl
  | true => simp [eq_of_beq heq, hne]

/-- Extensions of another type are looked up with the same result. -/
theorem AgreesBut.soleExtension_eq (h : AgreesBut id c c') {id' : Bytes} (hne : id' ≠ id) :
    c'.soleExtension id' fault = c.soleExtension id' fault := by
  rw [soleExtension, soleExtension, ← filter_others hne c'.extensions, h.others, filter_others hne]

/-- The check of an authenticator's certificate tells no two certificates apart by their models
after the first. -/
theorem AgreesBut.checkAuthenticator_eq (h : AgreesBut aaguidId c c') (aaguid : Bytes) :
    c'.checkAuthenticator aaguid = c.checkAuthenticator aaguid := by
  have hsole : c'.soleExtension basicConstraintsId .basicConstraints =
      c.soleExtension basicConstraintsId .basicConstraints := h.soleExtension_eq (by decide)
  simp only [checkAuthenticator, requireVersion3, subjectAttribute, requireNotAuthority,
    isAuthority, checkAaguid, Certificate.aaguid, h.version_eq, h.subject_eq, h.first, hsole]

/-- Nor does the check of an attestation key's certificate. -/
theorem AgreesBut.tpm_checkAaguid_eq (h : AgreesBut aaguidId c c') (aaguid : Bytes) :
    TpmStatement.checkAaguid c' aaguid = TpmStatement.checkAaguid c aaguid := by
  simp only [TpmStatement.checkAaguid, Certificate.aaguid, h.first]

end

/-! ## Certificates that repeat the extension -/

/-- The extension that names the model of sixteen such bytes. -/
def modelExtension (d : UInt8) (critical : Bool) : CertificateExtension :=
  ⟨aaguidId, critical, 0x04 :: 0x10 :: List.replicate 16 d⟩

/-- The extension of the sample names its own model only. -/
theorem names_modelExtension {d d' : UInt8} {critical : Bool} :
    (modelExtension d critical).Names (List.replicate 16 d') ↔ d = d' := by
  have hread : Der.Value.read (modelExtension d critical).content =
      some (.octets (List.replicate 16 d), []) := rfl
  rw [CertificateExtension.Names, hread]
  simp

/-- The certificate of an authenticator, with the given extensions. -/
def authenticatorWith (extensions : List CertificateExtension) : Certificate where
  version := 2
  subject := [⟨NameAttribute.country, 19, Bytes.ofText "SE"⟩,
    ⟨NameAttribute.organization, 12, Bytes.ofText "Vendor"⟩,
    ⟨NameAttribute.organizationalUnit, 12, Bytes.ofText "Authenticator Attestation"⟩,
    ⟨NameAttribute.commonName, 12, Bytes.ofText "Authenticator"⟩]
  keyAlgorithm := ed25519Id
  keyParameters := none
  keyBits := List.replicate 32 0x07
  extensions

/-- The certificate of the sample is one of an authenticator of the model. -/
theorem isAuthenticator_authenticatorWith (d : UInt8) :
    (authenticatorWith [modelExtension d false]).IsAuthenticator (List.replicate 16 d) where
  version := rfl
  country := ⟨_, .head _, rfl⟩
  organization := ⟨_, .tail _ (.head _), rfl⟩
  commonName := ⟨_, .tail _ (.tail _ (.tail _ (.head _))), rfl⟩
  unit := by
    refine ⟨_, rfl, ?_⟩
    rw [NameAttribute.text?, if_pos (by decide)]
    exact Bytes.toText?_eq_some.2 rfl
  notAuthority := .inl rfl
  model := by
    rintro _ ⟨⟩
    exact names_modelExtension.2 rfl
  uncritical := by
    rintro _ ⟨⟩
    rfl

/-- The certificate of the sample passes the checks of both formats. -/
theorem checks_authenticatorWith (d : UInt8) :
    (authenticatorWith [modelExtension d false]).checkAuthenticator (List.replicate 16 d) = .ok () ∧
      TpmStatement.checkAaguid (authenticatorWith [modelExtension d false])
        (List.replicate 16 d) = .ok () := by
  have hauthenticator := isAuthenticator_authenticatorWith d
  exact ⟨checkAuthenticator_eq_ok.2 hauthenticator,
    TpmStatement.checkAaguid_eq_ok.2 hauthenticator.model⟩

/-- A second extension with the identifier is all that the certificates differ in. -/
theorem agreesBut_authenticatorWith (d d' : UInt8) (critical : Bool) :
    AgreesBut aaguidId (authenticatorWith [modelExtension d false])
      (authenticatorWith [modelExtension d false, modelExtension d' critical]) :=
  ⟨rfl, rfl, rfl⟩

/-! ## What the checks say of all models -/

/-- Neither check of the model reads an extension that names one after the first. So a certificate
that is let pass names the given model in all of these extensions, and with none of them critical if
it is an authenticator's, exactly if it does so in those after the first. -/
theorem every_model_checked_iff (c : Certificate) (aaguid : Bytes) :
    (∀ c', AgreesBut aaguidId c c' →
      c'.checkAuthenticator aaguid = c.checkAuthenticator aaguid ∧
        TpmStatement.checkAaguid c' aaguid = TpmStatement.checkAaguid c aaguid) ∧
    (c.checkAuthenticator aaguid = .ok () →
      ((∀ e ∈ c.extensionsOf aaguidId, e.Names aaguid ∧ e.critical = false) ↔
        ∀ e ∈ c.laterExtensionsOf aaguidId, e.Names aaguid ∧ e.critical = false)) ∧
    (TpmStatement.checkAaguid c aaguid = .ok () →
      ((∀ e ∈ c.extensionsOf aaguidId, e.Names aaguid) ↔
        ∀ e ∈ c.laterExtensionsOf aaguidId, e.Names aaguid)) := by
  refine ⟨fun c' h => ⟨h.checkAuthenticator_eq aaguid, h.tpm_checkAaguid_eq aaguid⟩,
    fun hpacked => ?_, fun htpm => ?_⟩
  · have hauthenticator := checkAuthenticator_eq_ok.1 hpacked
    exact forall_extensionsOf_iff fun e he =>
      ⟨hauthenticator.model e he, hauthenticator.uncritical e he⟩
  · have hmodel := TpmStatement.checkAaguid_eq_ok.1 htpm
    exact forall_extensionsOf_iff hmodel

/-- With one extension nothing is left out, and with another one after it the answers are the
same. -/
theorem every_model_checked_single :
    (∀ e ∈ (authenticatorWith [modelExtension 0x01 false]).extensionsOf aaguidId,
      e.Names (List.replicate 16 0x01) ∧ e.critical = false) ∧
    (∀ e ∈ (authenticatorWith [modelExtension 0x01 false]).extensionsOf aaguidId,
      e.Names (List.replicate 16 0x01)) ∧
    (authenticatorWith [modelExtension 0x01 false, modelExtension 0x02 true]).checkAuthenticator
      (List.replicate 16 0x01) = .ok () := by
  obtain ⟨hunread, hallPacked, hallTpm⟩ := every_model_checked_iff
    (authenticatorWith [modelExtension 0x01 false]) (List.replicate 16 0x01)
  obtain ⟨hpacked, htpm⟩ := checks_authenticatorWith 0x01
  refine ⟨(hallPacked hpacked).2 nofun, (hallTpm htpm).2 nofun, ?_⟩
  rw [(hunread _ (agreesBut_authenticatorWith 0x01 0x02 true)).1]
  exact hpacked

/-- A certificate that names its model, and then another one in a critical extension, passes both
checks. -/
theorem later_model_unchecked :
    (authenticatorWith [modelExtension 0x01 false, modelExtension 0x02 true]).checkAuthenticator
      (List.replicate 16 0x01) = .ok () ∧
    TpmStatement.checkAaguid
      (authenticatorWith [modelExtension 0x01 false, modelExtension 0x02 true])
      (List.replicate 16 0x01) = .ok () ∧
    modelExtension 0x02 true ∈ (authenticatorWith
      [modelExtension 0x01 false, modelExtension 0x02 true]).extensionsOf aaguidId ∧
    ¬(modelExtension 0x02 true).Names (List.replicate 16 0x01) := by
  have hagrees := agreesBut_authenticatorWith 0x01 0x02 true
  obtain ⟨hpacked, htpm⟩ := checks_authenticatorWith 0x01
  rw [hagrees.checkAuthenticator_eq, hagrees.tpm_checkAaguid_eq, names_modelExtension]
  exact ⟨hpacked, htpm, .tail _ (.head _), by decide⟩

end Certificate

end Attestation
