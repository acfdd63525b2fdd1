import Attestation.Checked.Certificate
import Attestation.Proofs.Verification.Apple

/-!
# Versions of certificates that are named in range

The sum of an encoded version and one fits a word for every version but the last one, which a
certificate may have. There the checks of a certificate are stopped, or, where the sum is that of
words, name version 0; at every other version but the third they refuse the certificate and name its
version (`Certificate.checks_in_range_iff`).
-/

namespace Attestation

namespace Certificate

/-- The last encoded version; the sum does not fit a word. -/
def lastVersion : UInt32 := 0xffffffff

/-! ## The sum -/

/-- One can be added to every version but the last one of 32 bits. -/
theorem toNat_add_one_lt_iff {v : UInt32} : v.toNat + 1 < 2 ^ 32 ↔ v ≠ lastVersion := by
  have hlast : lastVersion.toNat = 2 ^ 32 - 1 := rfl
  have hlt : v.toNat < 2 ^ 32 := v.toNat_lt
  rw [ne_eq, ← UInt32.toNat_inj, hlast]
  omega

/-- Before the last version the word of the sum is the sum. -/
theorem toNat_add_one {v : UInt32} (h : v ≠ lastVersion) : (v + 1).toNat = v.toNat + 1 := by
  rw [UInt32.toNat_add]
  exact Nat.mod_eq_of_lt (toNat_add_one_lt_iff.2 h)

/-- The message is written in range before the last version, as the one that names the fault. -/
theorem versionText_of_ne {v : UInt32} (h : v ≠ lastVersion) :
    Checked.versionText v = .ok (CertificateFault.version v).message := by
  have hadd : Checked.add32 v 1 = .ok (v + 1) := if_pos (toNat_add_one_lt_iff.2 h)
  rw [Checked.versionText, hadd]
  rfl

/-- The fault names the version, other than the last one. -/
theorem message_version_iff {v : UInt32} :
    (CertificateFault.version v).message =
      s!"Certificate version must be 3, found {v.toNat + 1}" ↔ v ≠ lastVersion := by
  have hmessage : (CertificateFault.version v).message =
      s!"Certificate version must be 3, found {(v + 1).toNat}" := rfl
  rw [hmessage]
  refine ⟨?_, fun h => by rw [toNat_add_one h]⟩
  rintro h rfl
  have hwrapped : (lastVersion + 1).toNat = 0 := rfl
  have hsum : lastVersion.toNat + 1 = 4294967296 := rfl
  rw [hwrapped, hsum] at h
  exact absurd h (by decide)

/-! ## The checks -/

section
variable {c : Certificate}

/-- The version is checked without a failure unless it is the last one. -/
theorem checkedRequireVersion3_of_ne (h : c.version ≠ lastVersion) :
    Checked.requireVersion3 c = Checked.ofResult c.requireVersion3 := by
  unfold Checked.requireVersion3 requireVersion3 require
  by_cases hversion : c.version = version3
  · rw [if_pos hversion, if_pos (beq_iff_eq.2 hversion)]
    rfl
  · rw [if_neg hversion, if_neg (mt beq_iff_eq.1 hversion),
      Checked.liftM_eq_pure (versionText_of_ne h), pure_bind]
    rfl

/-- The last version overflows in the message that it is refused with. -/
theorem checkedRequireVersion3_lastVersion (h : c.version = lastVersion) :
    Checked.requireVersion3 c = ExceptT.mk (.error (.sum lastVersion.toNat 1)) := by
  rw [Checked.requireVersion3, h]
  rfl

/-- Another version is refused by its number. -/
theorem requireVersion3_of_ne (h : c.version ≠ version3) :
    c.requireVersion3 = .error (.certificateInvalid (.version c.version)) := by
  rw [requireVersion3, require, if_neg (mt beq_iff_eq.1 h)]

/-- The certificate of an authenticator is checked without a failure unless it has the last
version. -/
theorem checkedCheckAuthenticator_of_ne (h : c.version ≠ lastVersion) (aaguid : Bytes) :
    Checked.checkAuthenticator c aaguid = Checked.ofResult (c.checkAuthenticator aaguid) := by
  refine Checked.bind_eq_ofResult (checkedRequireVersion3_of_ne h) fun _ => ?_
  refine Checked.bind_eq_ofResult rfl fun _ => Checked.bind_eq_ofResult rfl fun _ => ?_
  refine Checked.bind_eq_ofResult rfl fun _ => Checked.bind_eq_ofResult rfl fun unit => ?_
  refine Checked.bind_eq_ofResult rfl fun unit => Checked.bind_eq_ofResult rfl fun _ => ?_
  exact Checked.bind_eq_ofResult rfl fun _ => rfl

/-- The certificate of an attestation key is checked without a failure unless it has the last
version. -/
theorem checkedCheckAttestationKey_of_ne (h : c.version ≠ lastVersion) (policy : TpmDevicePolicy) :
    Checked.checkAttestationKey policy c = Checked.ofResult (c.checkAttestationKey policy) := by
  refine Checked.bind_eq_ofResult (checkedRequireVersion3_of_ne h) fun _ => ?_
  refine Checked.bind_eq_ofResult rfl fun _ => Checked.bind_eq_ofResult rfl fun device => ?_
  refine Checked.bind_eq_ofResult rfl fun _ => Checked.bind_eq_ofResult rfl fun usages => ?_
  exact Checked.bind_eq_ofResult rfl fun usages => Checked.bind_eq_ofResult rfl fun _ => rfl

end

/-- A certificate of another version than 3 is refused for its version. With the sum checked, both
checks give the result that they give without, and the message names the version, for every encoded
version but the last one. At the last one they are stopped by the sum. -/
theorem checks_in_range_iff (c : Certificate) (aaguid : Bytes) (policy : TpmDevicePolicy) :
    (c.version ≠ lastVersion →
      Checked.checkAuthenticator c aaguid = Checked.ofResult (c.checkAuthenticator aaguid) ∧
      Checked.checkAttestationKey policy c = Checked.ofResult (c.checkAttestationKey policy)) ∧
    (c.version = lastVersion →
      (Checked.checkAuthenticator c aaguid).run = .error (.sum 4294967295 1) ∧
      (Checked.checkAttestationKey policy c).run = .error (.sum 4294967295 1)) ∧
    (c.version ≠ version3 →
      c.checkAuthenticator aaguid = .error (.certificateInvalid (.version c.version)) ∧
      c.checkAttestationKey policy = .error (.certificateInvalid (.version c.version))) ∧
    ((CertificateFault.version c.version).message =
        s!"Certificate version must be 3, found {c.version.toNat + 1}" ↔
      c.version ≠ lastVersion) := by
  refine ⟨fun h => ?_, fun h => ?_, fun h => ?_, message_version_iff⟩
  · exact ⟨checkedCheckAuthenticator_of_ne h aaguid, checkedCheckAttestationKey_of_ne h policy⟩
  · rw [Checked.checkAuthenticator, Checked.checkAttestationKey,
      checkedRequireVersion3_lastVersion h]
    exact ⟨rfl, rfl⟩
  · rw [checkAuthenticator, checkAttestationKey, requireVersion3_of_ne h]
    exact ⟨rfl, rfl⟩

namespace VersionSample

open AppleSample (element)

/-- A certificate with the given content of the encoded version. -/
def certificate (version : Bytes) : Bytes :=
  let algorithm := element 0x30 (element 0x06 ed25519Id)
  let time := element 0x17 (Bytes.ofText "250101000000Z")
  element 0x30 (element 0x30 (element 0xa0 (element 0x02 version) ++ element 0x02 [0x01] ++
      algorithm ++ element 0x30 [] ++ element 0x30 (time ++ time) ++ element 0x30 [] ++
      element 0x30 (algorithm ++ element 0x03 (0 :: AppleSample.key))) ++
    algorithm ++ element 0x03 [0])

/-- What the certificate says. -/
def parsed (version : UInt32) : Certificate :=
  ⟨version, [], ed25519Id, none, AppleSample.key, []⟩

/-- The content of the last encoded version. -/
def lastContent : Bytes := [0x00, 0xff, 0xff, 0xff, 0xff]

end VersionSample

open VersionSample (certificate parsed lastContent)

/-- A certificate of version 2 is refused with a message that names it. -/
theorem checks_in_range_iff_version2 :
    Certificate.parse (certificate [0x01]) = .ok (parsed 1) ∧
      Checked.checkAttestationKey .acceptAll (parsed 1) =
        Checked.ofResult (.error (.certificateInvalid (.version 1))) ∧
      (CertificateFault.version 1).message = s!"Certificate version must be 3, found {2}" ∧
      (Checked.checkAuthenticator (parsed lastVersion) []).run = .error (.sum 4294967295 1) := by
  have hparse : Certificate.parse (certificate [0x01]) = .ok (parsed 1) := by decide +kernel
  have hne : (parsed 1).version ≠ lastVersion := by decide
  obtain ⟨hchecked, -, hrefused, hmessage⟩ := checks_in_range_iff (parsed 1) [] .acceptAll
  obtain ⟨-, hlast, -, -⟩ := checks_in_range_iff (parsed lastVersion) [] .acceptAll
  refine ⟨hparse, ?_, hmessage.2 hne, (hlast rfl).1⟩
  rw [(hchecked hne).2, (hrefused (by decide)).2]
  rfl

/-- A certificate has the last encoded version. The checks are stopped, and without the check of the
sum the message names version 0. -/
theorem check_stopped_at_lastVersion :
    Certificate.parse (certificate lastContent) = .ok (parsed lastVersion) ∧
      (Checked.checkAuthenticator (parsed lastVersion) []).run = .error (.sum 4294967295 1) ∧
      (Checked.checkAttestationKey .acceptAll (parsed lastVersion)).run =
        .error (.sum 4294967295 1) ∧
      (parsed lastVersion).checkAttestationKey .acceptAll =
        .error (.certificateInvalid (.version lastVersion)) ∧
      (CertificateFault.version lastVersion).message =
        s!"Certificate version must be 3, found {0}" ∧
      (CertificateFault.version lastVersion).message ≠
        s!"Certificate version must be 3, found {lastVersion.toNat + 1}" := by
  have hparse : Certificate.parse (certificate lastContent) = .ok (parsed lastVersion) := by
    decide +kernel
  exact ⟨hparse, rfl, rfl, rfl, rfl, fun h => message_version_iff.1 h rfl⟩

end Certificate

end Attestation
