import Attestation.Proofs.Verification.AndroidKey
import Attestation.Proofs.Verification.Payload
import Attestation.Proofs.Verification.Tpm

/-!
# What the configuration decides

Each setting is for one format: a registration of another format has the same result under every
value of it (`Config.verify_congr`). Two settings restrict what is accepted. An Android key that is
accepted where the trusted environment has to enforce origin and purpose is accepted where software
may too (`AndroidKeyStatement.Accepts.relax`). The policy on TPM devices is asked only about a
registration that is otherwise in order as far as it has been checked (`Registration.asks_iff`), and
its answer is either the result or makes no difference to it (`Config.verify_cases`).
-/

namespace Attestation

/-- Verifies a registration with the built-in validators of the configuration. -/
def Config.verify (config : Config) (now : Instant) (r : Registration) : Result Verdict :=
  ({ config } : Verifier).verify now r

/-- The certificate of the attestation key names the device as that of its TPM: the device is told
by the alternative names of the first certificate of a TPM statement. -/
inductive Registration.NamesDevice (r : Registration) (d : TpmDevice) : Prop
  | intro {s : TpmStatement} {certificates : List Bytes} {leaf : Certificate} :
    r.statement = .tpm s → s.certificates = some certificates → BeginsWith certificates leaf →
    leaf.TellsDevice d → NamesDevice r d

/-- The policy is asked about the device: the result can depend on the answer to this question
alone. -/
def Registration.Asks (r : Registration) (d : TpmDevice) : Prop :=
  ∃ (config : Config) (now : Instant) (p q : TpmDevicePolicy), (∀ d', d' ≠ d → p d' = q d') ∧
    ({ config with devicePolicy := p } : Config).verify now r ≠
      ({ config with devicePolicy := q } : Config).verify now r

/-- The configurations agree on what there is to decide about the registration. -/
def Config.AgreesFor (r : Registration) (c₁ c₂ : Config) : Prop :=
  match r.statement.format with
  | .none | .packed | .fidoU2f | .apple => True
  | .androidSafetyNet => c₁.backward = c₂.backward ∧ c₁.forward = c₂.forward
  | .androidKey => c₁.teeOnly = c₂.teeOnly
  | .tpm => ∀ d, r.NamesDevice d → c₁.devicePolicy d = c₂.devicePolicy d

/-! ## Android keys -/

/-- What the list of the trusted environment says alone is said by both lists together. -/
theorem KeyDescription.Generated.relax {d : KeyDescription} (h : d.Generated true) :
    d.Generated false := by
  obtain ⟨htee⟩ := h
  exact .tee htee

/-- A purpose in the list of the trusted environment is one in both lists together. -/
theorem KeyDescription.Signing.relax {d : KeyDescription} (h : d.Signing true) :
    d.Signing false := by
  obtain ⟨htee⟩ := h
  exact .tee htee

/-- What the trusted environment enforces is enforced. -/
theorem KeyDescription.Fits.relax {d : KeyDescription} {clientDataHash : Bytes}
    (h : d.Fits true clientDataHash) : d.Fits false clientDataHash :=
  { h with generated := h.generated.relax, signing := h.signing.relax }

/-- What is accepted by the list of the trusted environment alone is accepted by both lists. -/
theorem AndroidKeyStatement.Accepts.relax {s : AndroidKeyStatement} {r : Registration}
    (h : s.Accepts true r) : s.Accepts false r := by
  obtain ⟨hcredential, hleaf, hkey, halg, hsignature, hdenotes, hdescription, hfits⟩ := h
  exact .intro hcredential hleaf hkey halg hsignature hdenotes hdescription hfits.relax

/-! ## TPM devices -/

namespace TpmStatement

variable {s : TpmStatement} {r : Registration} {f : Findings}

/-- A statement that reaches the policy is decided by it and then by the checks after it. -/
theorem Reaches.verify_eq (h : s.Reaches r f) (policy : TpmDevicePolicy) :
    s.verify policy r = policy.check f.device >>= fun _ => afterPolicy f := by
  rw [TpmStatement.verify_eq, beforePolicy_eq_ok.2 h]
  rfl

/-- Either the verification fails before the policy is asked, or it asks the policy. -/
theorem verify_cases (s : TpmStatement) (r : Registration) :
    (∃ e, ∀ policy, s.verify policy r = .error e) ∨ ∃ f, s.Reaches r f := by
  cases h : s.beforePolicy r with
  | error e =>
    refine .inl ⟨e, fun policy => ?_⟩
    rw [verify_eq, h]
    rfl
  | ok f => exact .inr ⟨f, beforePolicy_eq_ok.1 h⟩

/-- A device that the policy rejects is rejected for its reason. -/
theorem Reaches.verify_of_reject (h : s.Reaches r f) {policy : TpmDevicePolicy} {reason : String}
    (hpolicy : policy f.device = .error reason) :
    s.verify policy r = .error (.devicePropertyRejected reason) := by
  rw [h.verify_eq, TpmDevicePolicy.check, hpolicy]
  rfl

/-- Only what the policy says of the one device matters. -/
theorem Reaches.verify_congr (h : s.Reaches r f) {p q : TpmDevicePolicy}
    (hpolicy : p f.device = q f.device) : s.verify p r = s.verify q r := by
  rw [h.verify_eq, h.verify_eq, TpmDevicePolicy.check, TpmDevicePolicy.check, hpolicy]

/-- The policy is asked about the device that the certificate names. -/
theorem Reaches.namesDevice (h : s.Reaches r f) (hs : r.statement = .tpm s) :
    r.NamesDevice f.device := by
  obtain ⟨-, -, -, -, -, -, -, -, -, hcertificates, hleaf, -, -, hasked⟩ := h
  exact .intro hs hcertificates hleaf hasked.device

end TpmStatement

/-! ## All formats -/

namespace Config

variable {c c₁ c₂ : Config} {now : Instant} {r : Registration}

/-- A verification is the procedure of the format of the statement. -/
theorem verify_eq (c : Config) (now : Instant) (r : Registration) :
    c.verify now r = r.statement.format.verify c now r :=
  Verifier.verify_of_added_eq_nil rfl r

/-- A TPM attestation looks at the device policy only. -/
theorem verify_tpm {s : TpmStatement} (hs : r.statement = .tpm s) :
    c.verify now r = s.verify c.devicePolicy r := by
  rw [verify_eq, Format.verify_own, hs]

/-- An attestation with a described key looks only at which lists count. -/
theorem verify_androidKey {s : AndroidKeyStatement} (hs : r.statement = .androidKey s) :
    c.verify now r = s.verify c.teeOnly r := by
  rw [verify_eq, Format.verify_own, hs]

/-- Configurations that agree on what there is to decide have the same result. -/
theorem verify_congr (h : AgreesFor r c₁ c₂) : c₁.verify now r = c₂.verify now r := by
  unfold AgreesFor at h
  cases hs : r.statement with
  | tpm s =>
    rw [hs] at h
    rw [verify_tpm hs, verify_tpm hs]
    rcases s.verify_cases r with ⟨e, he⟩ | ⟨f, hf⟩
    · rw [he, he]
    · exact hf.verify_congr (h _ (hf.namesDevice hs))
  | androidKey s =>
    rw [hs] at h
    rw [verify_androidKey hs, verify_androidKey hs, h]
  | androidSafetyNet s =>
    rw [hs] at h
    rw [verify_eq, verify_eq, Format.verify_own, Format.verify_own, hs]
    simp only [SafetyNetStatement.verify, SafetyNetStatement.checkResponse, h.1, h.2]
  | packed | fidoU2f | apple | none =>
    rw [verify_eq, verify_eq, Format.verify_own, Format.verify_own, hs]

/-- Without a TPM statement there is nothing for the policy to decide. -/
theorem agreesFor_of_ne_tpm (h : r.statement.format ≠ .tpm) (c : Config) (p q : TpmDevicePolicy) :
    AgreesFor r { c with devicePolicy := p } { c with devicePolicy := q } := by
  unfold AgreesFor
  split <;> simp_all

end Config

/-- The policy is asked about the device that has been found when all that comes before is in
order. -/
theorem Registration.asks_iff {r : Registration} {d : TpmDevice} :
    r.Asks d ↔ ∃ s f, r.statement = .tpm s ∧ s.Reaches r f ∧ f.device = d := by
  refine ⟨fun h => ?_, fun h => ?_⟩
  · obtain ⟨config, now, p, q, hothers, hdiffer⟩ := h
    cases hs : r.statement with
    | tpm s =>
      rw [Config.verify_tpm hs, Config.verify_tpm hs] at hdiffer
      rcases s.verify_cases r with ⟨e, he⟩ | ⟨f, hf⟩
      · exact absurd ((he p).trans (he q).symm) hdiffer
      · by_cases hd : f.device = d
        · exact ⟨s, f, rfl, hf, hd⟩
        · exact absurd (hf.verify_congr (hothers _ hd)) hdiffer
    | _ =>
      refine absurd (Config.verify_congr (Config.agreesFor_of_ne_tpm ?_ config p q)) hdiffer
      rw [hs]
      nofun
  · obtain ⟨s, f, hs, hf, rfl⟩ := h
    -- Two reasons to reject the device lead to two errors.
    let rejects (reason : String) : TpmDevicePolicy := fun d =>
      if d = f.device then .error reason else .ok ()
    have hreject (reason : String) :
        s.verify (rejects reason) r = .error (.devicePropertyRejected reason) :=
      hf.verify_of_reject (if_pos rfl)
    refine ⟨{}, ⟨0⟩, rejects "a", rejects "b", fun d' hd' => ?_, ?_⟩
    · exact (if_neg hd').trans (if_neg hd').symm
    · rw [Config.verify_tpm hs, Config.verify_tpm hs]
      simp [hreject]

/-- A device that the policy is asked about is named by the certificate. -/
theorem Registration.Asks.namesDevice {r : Registration} {d : TpmDevice} (h : r.Asks d) :
    r.NamesDevice d := by
  obtain ⟨s, f, hs, hf, rfl⟩ := asks_iff.1 h
  exact hf.namesDevice hs

/-- A registration names at most one device. -/
theorem Registration.NamesDevice.unique {r : Registration} {d d' : TpmDevice}
    (h : r.NamesDevice d) (h' : r.NamesDevice d') : d = d' := by
  obtain ⟨hs, hcertificates, hleaf, hd⟩ := h
  obtain ⟨hs', hcertificates', hleaf', hd'⟩ := h'
  cases hs.symm.trans hs'
  cases hcertificates.symm.trans hcertificates'
  cases hleaf.unique hleaf'
  exact hd.unique hd'

namespace Config

variable {c c₁ c₂ : Config} {now : Instant} {r : Registration}

/-- Policies that answer the questions in the same way have the same result. -/
theorem verify_congr_policy {p : TpmDevicePolicy} (h : ∀ d, r.Asks d → c.devicePolicy d = p d) :
    c.verify now r = ({ c with devicePolicy := p } : Config).verify now r := by
  cases hs : r.statement with
  | tpm s =>
    rw [verify_tpm hs, verify_tpm hs]
    rcases s.verify_cases r with ⟨e, he⟩ | ⟨f, hf⟩
    · rw [he, he]
    · exact hf.verify_congr (h _ (Registration.asks_iff.2 ⟨s, f, hs, hf, rfl⟩))
  | _ =>
    refine verify_congr (agreesFor_of_ne_tpm ?_ c c.devicePolicy p)
    rw [hs]
    nofun

/-- The policy decides by rejecting a device that it is asked about, and in no other way. -/
theorem verify_cases (c : Config) (now : Instant) (r : Registration) :
    (∃ d reason, r.Asks d ∧ c.devicePolicy d = .error reason ∧
      c.verify now r = .error (.devicePropertyRejected reason)) ∨
    (∀ d, r.Asks d → c.devicePolicy d = .ok ()) ∧
      c.verify now r = ({ c with devicePolicy := .acceptAll } : Config).verify now r := by
  by_cases h : ∃ d reason, r.Asks d ∧ c.devicePolicy d = .error reason
  · obtain ⟨d, reason, hasks, hpolicy⟩ := h
    refine .inl ⟨d, reason, hasks, hpolicy, ?_⟩
    obtain ⟨s, f, hs, hf, rfl⟩ := Registration.asks_iff.1 hasks
    rw [verify_tpm hs]
    exact hf.verify_of_reject hpolicy
  · have haccepts : ∀ d, r.Asks d → c.devicePolicy d = .ok () := by
      intro d hasks
      cases hpolicy : c.devicePolicy d with
      | ok => rfl
      | error reason => exact absurd ⟨d, reason, hasks, hpolicy⟩ h
    exact .inr ⟨haccepts, verify_congr_policy haccepts⟩

/-- No TPM attestation is accepted without asking the policy. -/
theorem asks_of_verify {v : Verdict} (hformat : r.statement.format = .tpm)
    (h : c.verify now r = .ok v) : ∃ d, r.Asks d ∧ c.devicePolicy d = .ok () := by
  cases hs : r.statement with
  | tpm s =>
    rw [verify_tpm hs] at h
    obtain ⟨f, hf, hpolicy, -⟩ := TpmStatement.accepts_iff.1 (TpmStatement.verify_eq_ok.1 h).1
    exact ⟨f.device, Registration.asks_iff.2 ⟨s, f, hs, hf, rfl⟩, hpolicy⟩
  | _ =>
    rw [hs] at hformat
    cases hformat

/-- What is accepted if the trusted environment has to enforce it is accepted if software may. -/
theorem verify_relax {v : Verdict} (hformat : r.statement.format = .androidKey)
    (h₁ : c₁.teeOnly = true) (h₂ : c₂.teeOnly = false) (h : c₁.verify now r = .ok v) :
    c₂.verify now r = .ok v := by
  cases hs : r.statement with
  | androidKey s =>
    rw [verify_androidKey hs, h₁] at h
    rw [verify_androidKey hs, h₂]
    obtain ⟨haccepts, hv⟩ := AndroidKeyStatement.verify_eq_ok.1 h
    exact AndroidKeyStatement.verify_eq_ok.2 ⟨haccepts.relax, hv⟩
  | _ =>
    rw [hs] at hformat
    cases hformat

/-- The configuration reaches a registration through the settings of its format only, and there only
to restrict what is accepted. An Android key that passes where the trusted environment has to
enforce origin and purpose passes with the same verdict where software may. The policy on devices is
asked about one device at most, the one that the certificate of the attestation key names, and only
after the keys, the hashes, the signature, the versions and the subject have been checked. If it
rejects the device, its reason is the result, and otherwise the result is the one under the policy
that accepts all devices; it is not left out where a TPM attestation is accepted. -/
theorem noninterference (r : Registration) :
    (∀ (c₁ c₂ : Config) (now : Instant), AgreesFor r c₁ c₂ → c₁.verify now r = c₂.verify now r) ∧
    (r.statement.format = .androidKey → ∀ (c₁ c₂ : Config) (now : Instant) (v : Verdict),
      c₁.teeOnly = true → c₂.teeOnly = false → c₁.verify now r = .ok v → c₂.verify now r = .ok v) ∧
    (∀ d d', r.NamesDevice d → r.NamesDevice d' → d = d') ∧
    (∀ d, r.Asks d → r.NamesDevice d) ∧
    (∀ d, r.Asks d ↔ ∃ s f, r.statement = .tpm s ∧ s.Reaches r f ∧ f.device = d) ∧
    (∀ (c : Config) (now : Instant),
      (∃ d reason, r.Asks d ∧ c.devicePolicy d = .error reason ∧
        c.verify now r = .error (.devicePropertyRejected reason)) ∨
      (∀ d, r.Asks d → c.devicePolicy d = .ok ()) ∧
        c.verify now r = ({ c with devicePolicy := .acceptAll } : Config).verify now r) ∧
    (r.statement.format = .tpm → ∀ (c : Config) (now : Instant) (v : Verdict),
      c.verify now r = .ok v → ∃ d, r.Asks d ∧ c.devicePolicy d = .ok ()) := by
  refine ⟨fun c₁ c₂ now h => verify_congr h, ?_, fun d d' h h' => h.unique h',
    fun d h => h.namesDevice, fun d => Registration.asks_iff, fun c now => verify_cases c now r, ?_⟩
  · exact fun hformat c₁ c₂ now v h₁ h₂ h => verify_relax hformat h₁ h₂ h
  · exact fun hformat c now v h => asks_of_verify hformat h

end Config

/-! ## A sample -/

namespace TpmSample

open AppleSample (element)
open SecurityKeySample (x y authenticatorBytes authData)

/-- An element whose content may be longer than 255 bytes. -/
def longElement (tag : UInt8) (content : Bytes) : Bytes :=
  [tag, 0x82] ++ Bytes.ofNat 2 content.length ++ content

/-- The device that the certificate names. -/
def device : TpmDevice :=
  ⟨"id:FFFFF1D0", "model", "id:13"⟩

/-- An attribute of a directory name. -/
def nameAttribute (id : Bytes) (text : String) : Bytes :=
  element 0x31 (element 0x30 (element 0x06 id ++ element 0x0c (Bytes.ofText text)))

/-- An extension. -/
def extension (id content : Bytes) : Bytes :=
  element 0x30 (element 0x06 id ++ element 0x04 (element 0x30 content))

/-- The certificate of an attestation key, which is the base point of P-256. -/
def certificate : Bytes :=
  let algorithm := element 0x30 (element 0x06 Certificate.ed25519Id)
  let time := element 0x17 (Bytes.ofText "250101000000Z")
  let keyAlgorithm := element 0x30
    (element 0x06 Certificate.ecId ++ element 0x06 (Curve.objectId .p256))
  let point := Bytes.ofNat 32 PrimeCurve.p256.baseX ++ Bytes.ofNat 32 PrimeCurve.p256.baseY
  let name := element 0xa4 (element 0x30
    (nameAttribute TpmDevice.manufacturerId device.manufacturer ++
      nameAttribute TpmDevice.modelId device.partNumber ++
      nameAttribute TpmDevice.versionId device.firmwareVersion))
  let usage := element 0x06 Certificate.attestationKeyUsage
  longElement 0x30 (longElement 0x30 (element 0xa0 [0x02, 0x01, 0x02] ++ [0x02, 0x01, 0x01] ++
      algorithm ++ element 0x30 [] ++ element 0x30 (time ++ time) ++ element 0x30 [] ++
      element 0x30 (keyAlgorithm ++ element 0x03 (0 :: 0x04 :: point)) ++
      element 0xa3 (element 0x30 (extension Certificate.alternativeNamesId name ++
        extension Certificate.keyUsageId usage))) ++
    algorithm ++ element 0x03 [0])

/-- The public area of the credential key. -/
def pubArea : Bytes :=
  [0, 0x23, 0, 0x0b] ++ List.replicate 6 0 ++ [0, 0x10, 0, 0x10, 0, 3, 0, 0x10] ++
    ([0, 32] ++ x ++ [0, 32] ++ y)

/-- The certification of the area for the signed data. -/
def certInfo : Bytes :=
  [0xff, 0x54, 0x43, 0x47, 0x80, 0x17, 0, 0, 0, 32] ++
    Digest.sha256.hash (authenticatorBytes [] ++ List.replicate 32 0) ++ List.replicate 25 0 ++
    [0, 34, 0, 0x0b] ++ Digest.sha256.hash pubArea ++ [0, 0]

/-- The signature of the certification. The private key is 1, and so is the number that is taken for
the signature, whose first part is then a coordinate of the base point. -/
def signature : Bytes :=
  let first := PrimeCurve.p256.baseX
  let second := (first + Bytes.toNat (Digest.sha256.hash certInfo)) % PrimeCurve.p256.n
  element 0x30 (element 0x02 (Bytes.ofNat 32 first) ++ element 0x02 (Bytes.ofNat 32 second))

/-- An attestation of the TPM. -/
def statement : TpmStatement :=
  ⟨"2.0", -7, some [certificate], none, signature, some certInfo, some pubArea⟩

/-- The hash of the client data has its length. -/
theorem length_clientDataHash : (List.replicate 32 (0 : UInt8)).length = 32 :=
  rfl

/-- A registration with the attestation. -/
def registration : Registration :=
  ⟨⟨authData [], .tpm statement⟩, authenticatorBytes [], List.replicate 32 0,
    length_clientDataHash, authData [],
    SecurityKeySample.parse_authenticatorBytes (Nat.zero_le _), SecurityKeySample.same_authData []⟩

/-- The attestation is accepted under the policy that accepts all devices. -/
theorem verify_eq_ok :
    statement.verify .acceptAll registration = .ok ⟨.attCa, some [certificate]⟩ := by
  decide +kernel

/-- The certificate of the sample names the device. -/
theorem namesDevice : registration.NamesDevice device := by
  have hdevice : (Certificate.parse certificate >>= Certificate.tpmDevice) = .ok device := by
    decide +kernel
  obtain ⟨leaf, hparse, hdevice⟩ := bind_eq_ok.1 hdevice
  have hleaf : BeginsWith [certificate] leaf := ⟨_, _, rfl, Certificate.parse_eq_ok.1 hparse⟩
  exact .intro rfl rfl hleaf (Certificate.tpmDevice_eq_ok.1 hdevice)

end TpmSample

/-- The policy is asked about the device of the sample, and decides whether it is accepted. -/
theorem Config.noninterference_sample :
    TpmSample.registration.Asks TpmSample.device ∧
      ({} : Config).verify ⟨0⟩ TpmSample.registration =
        .ok ⟨.attCa, some [TpmSample.certificate]⟩ ∧
      ({ devicePolicy := fun _ => .error "recalled" } : Config).verify ⟨0⟩ TpmSample.registration =
        .error (.devicePropertyRejected "recalled") := by
  have hverify : ({} : Config).verify ⟨0⟩ TpmSample.registration =
      .ok ⟨.attCa, some [TpmSample.certificate]⟩ :=
    (Config.verify_tpm rfl).trans TpmSample.verify_eq_ok
  obtain ⟨-, -, hunique, hnamed, -, hcases, hasked⟩ := Config.noninterference TpmSample.registration
  obtain ⟨d, hasks, -⟩ := hasked rfl {} ⟨0⟩ _ hverify
  obtain rfl := hunique _ _ (hnamed d hasks) TpmSample.namesDevice
  refine ⟨hasks, hverify, ?_⟩
  rcases hcases { devicePolicy := fun _ => .error "recalled" } ⟨0⟩ with
    ⟨d, reason, -, hreason, hrejected⟩ | ⟨haccepts, -⟩
  · cases hreason
    exact hrejected
  · cases haccepts _ hasks

end Attestation
