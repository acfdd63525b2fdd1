import Attestation.Proofs.PublicKey.Missing
import Attestation.Proofs.PublicKey.Point

/-!
# Credential keys as public keys

A credential key that verifies a signature is converted first (`PublicKey.ofCredential`), by which
an RSA number loses its leading zero bytes. A number that is zero loses all its bytes. So the
converted key is the credential key where no RSA number is zero (`CredentialKey.Positive`), and then
it verifies what the key of a certificate verifies that is found to be the same. A key with the
exponent zero, which stands for 65537 where it is compared, verifies nothing, and is not found to be
the key that it was converted from (`CredentialKey.kept_by_conversion_iff`).
-/

namespace Attestation

/-- No RSA number of the key is zero. A coordinate may be. -/
def CredentialKey.Positive : CredentialKey → Prop
  | rsa _ modulus exponent => modulus.toNat ≠ 0 ∧ exponent.toNat ≠ 0
  | ec2 _ _ _ _ => True
  | okp _ _ => True

/-- No RSA number of the key has leading zero bytes. -/
def PublicKey.Trimmed : PublicKey → Prop
  | rsa modulus exponent => modulus.trimZeros = modulus ∧ exponent.trimZeros = exponent
  | ec _ _ _ => True
  | ed25519 _ => True

/-- An exponent that is not zero stands for itself. -/
theorem KeyValue.exponent_of_ne_zero {n : Nat} (h : n ≠ 0) : exponent n = n :=
  if_neg h

/-- After its leading zeros are dropped, a number has none. -/
@[simp] theorem Bytes.trimZeros_trimZeros (b : Bytes) : b.trimZeros.trimZeros = b.trimZeros :=
  trimZeros_eq_iff.2 (toNat_trimZeros b)

/-! ## The converted key -/

namespace PublicKey

/-- The conversion changes the numbers of a key no more than their writing. -/
theorem value_ofCredential (k : CredentialKey) : (ofCredential k).value = k.value := by
  cases k <;> simp [ofCredential, value, CredentialKey.value]

/-- A number that is zero is written by no byte at all after the conversion. -/
theorem complete_ofCredential_iff {k : CredentialKey} (hk : k.Complete) :
    (ofCredential k).Complete ↔ k.Positive := by
  cases k with
  | rsa _ n e =>
    exact and_congr (not_congr Bytes.trimZeros_eq_nil_iff) (not_congr Bytes.trimZeros_eq_nil_iff)
  | ec2 _ _ x y => exact iff_of_true hk trivial
  | okp _ x => exact iff_of_true hk trivial

/-- The key of a certificate has no leading zero bytes in its RSA numbers. -/
theorem trimmed_of_certificate {c : Certificate} {p : PublicKey} (h : c.publicKey = .ok p) :
    p.Trimmed := by
  cases p with
  | ec _ _ _ | ed25519 _ => trivial
  | rsa modulus exponent =>
    unfold Certificate.publicKey at h
    split at h
    · cases h
    split at h
    · have hkey := Certificate.orFault_eq_ok.1 h
      obtain ⟨_, -, h₁⟩ := Option.bind_eq_some_iff.1 hkey
      obtain ⟨_, -, h₂⟩ := Option.bind_eq_some_iff.1 h₁
      cases h₂
      exact ⟨Bytes.trimZeros_trimZeros _, Bytes.trimZeros_trimZeros _⟩
    split at h
    · obtain ⟨_, _, _, hkey, -⟩ := Certificate.ecKey_eq_ok.1 h
      cases hkey
    split at h
    · cases h
    · cases h

end PublicKey

/-! ## Signatures -/

/-- Nothing is signed under a key one of whose numbers is missing. -/
theorem Rsa.Key.ofBytes?_of_missing {modulus exponent : Bytes} (h : modulus = [] ∨ exponent = []) :
    Key.ofBytes? modulus exponent = none := by
  rcases h with rfl | rfl
  · rfl
  · unfold ofBytes?
    cases positive? modulus <;> rfl

/-- No signature verifies under an RSA key without a modulus or an exponent. -/
theorem Rsa.verify_of_missing {modulus exponent : Bytes} (h : modulus = [] ∨ exponent = [])
    (padding : Padding) (digest : Digest) (message sig : Bytes) :
    Rsa.verify padding digest modulus exponent message sig = false := by
  rw [Rsa.verify, Key.ofBytes?_of_missing h]

/-- No algorithm accepts a signature under an RSA key without a modulus or an exponent. -/
theorem Algorithm.verify_of_missing {modulus exponent : Bytes} (h : modulus = [] ∨ exponent = [])
    (alg : Algorithm) (message sig : Bytes) :
    alg.verify (.rsa modulus exponent) message sig ≠ .ok () := by
  cases alg with
  | es256 | es384 | es512 | edDSA => nofun
  | rs256 | rs384 | rs512 | ps256 | ps384 | ps512 | rs1 =>
    simp [Algorithm.verify, rsaScheme?, Rsa.verify_of_missing h, Algorithm.require]

namespace CredentialKey

/-- The converted key is a public key that was found to be the same, up to zero bytes before
coordinates. So it verifies the same signatures. -/
theorem verify_of_denotes {k : CredentialKey} {p : PublicKey} (hk : k.Positive) (hp : p.Trimmed)
    (h : k.denotes p = .ok true) (alg : Algorithm) (message sig : Bytes) :
    alg.verify (.ofCredential k) message sig = alg.verify p message sig := by
  obtain ⟨hvalue, -, hcomplete⟩ := denotes_eq_true_iff.1 h
  cases k with
  | rsa _ n e =>
    cases p with
    | rsa modulus exponent =>
      obtain ⟨hmodulus, hexponent⟩ := KeyValue.rsa.inj hvalue
      have hne : exponent.toNat ≠ 0 := fun hzero =>
        hcomplete.2 (hp.2 ▸ Bytes.trimZeros_eq_nil_iff.2 hzero)
      rw [KeyValue.exponent_of_ne_zero hk.2, KeyValue.exponent_of_ne_zero hne] at hexponent
      rw [PublicKey.ofCredential, Bytes.trimZeros_eq_iff.2 hmodulus,
        Bytes.trimZeros_eq_iff.2 hexponent, hp.1, hp.2]
    | ec _ _ _ | ed25519 _ => cases hvalue
  | ec2 _ curve x y =>
    cases p with
    | ec otherCurve otherX otherY =>
      obtain ⟨rfl, hx, hy⟩ := KeyValue.ec.inj hvalue
      exact PublicKey.verify_ec_congr hx hy alg message sig
    | rsa _ _ | ed25519 _ => cases hvalue
  | okp _ x =>
    cases p with
    | ed25519 otherX =>
      obtain rfl := KeyValue.ed25519.inj hvalue
      rfl
    | rsa _ _ | ec _ _ _ => cases hvalue

/-! ## The conversion -/

/-- A key is recognised after its conversion exactly if no RSA number of it is zero. -/
theorem denotes_ofCredential_iff {k : CredentialKey} (hk : k.Complete) :
    k.denotes (.ofCredential k) = .ok true ↔ k.Positive := by
  rw [denotes_eq_true_iff, ← PublicKey.complete_ofCredential_iff hk]
  exact ⟨fun h => h.complete_key, fun h => ⟨(PublicKey.value_ofCredential k).symm, hk, h⟩⟩

/-- One of the numbers is zero, and the modulus is looked at first. -/
theorem zero_of_not_positive {alg : Option Int} {n e : Bytes} (h : ¬(rsa alg n e).Positive) :
    n.toNat = 0 ∨ n.toNat ≠ 0 ∧ e.toNat = 0 := by
  by_cases hn : n.toNat = 0
  · exact .inl hn
  · exact .inr ⟨hn, Decidable.byContradiction fun he => h ⟨hn, he⟩⟩

/-- Of a key that has a zero among its numbers, the converted key lacks this number. -/
theorem exists_firstMissing_ofCredential {k : CredentialKey} (hk : k.Complete)
    (hzero : ¬k.Positive) : ∃ field, k.FirstMissing (.ofCredential k) field := by
  cases k with
  | rsa _ n e =>
    rcases zero_of_not_positive hzero with hn | ⟨hn, he⟩
    · exact ⟨_, .otherModulus hk.1 hk.2 (Bytes.trimZeros_eq_nil_iff.2 hn)⟩
    · have hmodulus := mt Bytes.trimZeros_eq_nil_iff.1 hn
      exact ⟨_, .otherExponent hk.1 hk.2 hmodulus (Bytes.trimZeros_eq_nil_iff.2 he)⟩
  | ec2 _ _ _ _ | okp _ _ => exact absurd trivial hzero

/-- A key with an RSA number that is zero verifies nothing after its conversion. -/
theorem verify_ofCredential_of_not_positive {k : CredentialKey} (hzero : ¬k.Positive)
    (alg : Algorithm) (message sig : Bytes) :
    alg.verify (.ofCredential k) message sig ≠ .ok () := by
  cases k with
  | rsa _ n e =>
    refine Algorithm.verify_of_missing ?_ alg message sig
    rcases zero_of_not_positive hzero with hn | ⟨-, he⟩
    · exact .inl (Bytes.trimZeros_eq_nil_iff.2 hn)
    · exact .inr (Bytes.trimZeros_eq_nil_iff.2 he)
  | ec2 _ _ _ _ | okp _ _ => exact absurd trivial hzero

/-- A key with all its numbers is found to be the key that it is converted to exactly if no RSA
number is zero, and then it verifies what the key of a certificate verifies that is found to be the
same. Otherwise the comparison fails, as a number is missing, and the converted key verifies
nothing. -/
theorem kept_by_conversion_iff (k : CredentialKey) (hk : k.Complete) :
    (k.denotes (.ofCredential k) = .ok true ↔ k.Positive) ∧
    (k.Positive → ∀ (c : Certificate) p, c.publicKey = .ok p → k.denotes p = .ok true →
      ∀ (alg : Algorithm) message sig,
        alg.verify (.ofCredential k) message sig = alg.verify p message sig) ∧
    (¬k.Positive →
      (∃ field, k.denotes (.ofCredential k) = .error (.malformedInput (.emptyField field))) ∧
      ∀ (alg : Algorithm) message sig, alg.verify (.ofCredential k) message sig ≠ .ok ()) := by
  refine ⟨denotes_ofCredential_iff hk, fun hpositive c p hp hdenotes => ?_, fun hzero => ⟨?_, ?_⟩⟩
  · exact verify_of_denotes hpositive (PublicKey.trimmed_of_certificate hp) hdenotes
  · obtain ⟨field, hfield⟩ := exists_firstMissing_ofCredential hk hzero
    exact ⟨field, denotes_of_firstMissing hfield⟩
  · exact verify_ofCredential_of_not_positive hzero

namespace ConversionSample

/-- A certificate that is read no further than for its key, an RSA key of the numbers 5 and 3. -/
def certificate : Certificate :=
  ⟨2, [], Certificate.rsaId, none, [0x30, 0x06, 0x02, 0x01, 0x05, 0x02, 0x01, 0x03], []⟩

end ConversionSample

open ConversionSample (certificate)

/-- The key of the certificate, with a zero byte before the modulus. -/
theorem kept_by_conversion_rsa :
    (rsa none [0, 5] [3]).Complete ∧ (rsa none [0, 5] [3]).Positive ∧
      (rsa none [0, 5] [3]).denotes (.ofCredential (rsa none [0, 5] [3])) = .ok true ∧
      certificate.publicKey = .ok (.rsa [5] [3]) ∧
      ∀ message sig,
        Algorithm.rs256.verify (.ofCredential (rsa none [0, 5] [3])) message sig =
          Algorithm.rs256.verify (.rsa [5] [3]) message sig := by
  have hcomplete : (rsa none [0, 5] [3]).Complete := ⟨nofun, nofun⟩
  have hpositive : (rsa none [0, 5] [3]).Positive := ⟨by decide, by decide⟩
  have hkey : certificate.publicKey = .ok (.rsa [5] [3]) := by decide +kernel
  have hdenotes : (rsa none [0, 5] [3]).denotes (.rsa [5] [3]) = .ok true := by decide
  obtain ⟨hkept, hverify, -⟩ := kept_by_conversion_iff _ hcomplete
  exact ⟨hcomplete, hpositive, hkept.2 hpositive, hkey,
    hverify hpositive certificate _ hkey hdenotes .rs256⟩

/-- The exponent of the credential key is a zero byte, which stands for 65537 where the key is
compared with one that writes this number, but which the converted key lacks. -/
theorem denotes_ofCredential_zero :
    (rsa (some (-257)) [5] [0]).Complete ∧
      (rsa (some (-257)) [5] [0]).denotes (.rsa [5] [1, 0, 1]) = .ok true ∧
      (rsa (some (-257)) [5] [0]).denotes (.ofCredential (rsa (some (-257)) [5] [0])) =
        .error (.malformedInput (.emptyField "RSA exponent")) ∧
      ¬∀ k : CredentialKey, k.Complete → k.denotes (.ofCredential k) = .ok true := by
  have hcomplete : (rsa (some (-257)) [5] [0]).Complete := ⟨nofun, nofun⟩
  have hfails : (rsa (some (-257)) [5] [0]).denotes (.ofCredential (rsa (some (-257)) [5] [0])) =
      .error (.malformedInput (.emptyField "RSA exponent")) := rfl
  refine ⟨hcomplete, by decide, hfails, fun h => ?_⟩
  cases hfails.symm.trans (h _ hcomplete)

end CredentialKey

end Attestation
