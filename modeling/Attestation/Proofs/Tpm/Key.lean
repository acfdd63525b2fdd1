import Attestation.Proofs.KeyValue
import Attestation.Proofs.Tpm.PublicArea

/-!
# Objects that are a credential key

`PublicBody.Describes` relates the parameters and the key in a public area to a credential key, by
the numbers that both write. The key that `PublicArea.key?` takes from an area is denoted by exactly
the credential keys that the area describes (`PublicArea.describes_iff`).
-/

namespace Attestation.Tpm

/-- The object has the numbers of the credential key, none of which is written by no byte at all; a
curve goes by its identifier, and an exponent of zero is the default one on either side. -/
inductive PublicBody.Describes : PublicBody → CredentialKey → Prop
  | rsa {symmetric scheme keyBits : UInt16} {exponent : UInt32} {modulus n e : Bytes}
      {alg : Option Int} :
    modulus ≠ [] → n ≠ [] → e ≠ [] → n.toNat = modulus.toNat →
    KeyValue.exponent e.toNat = KeyValue.exponent exponent.toNat →
    Describes (.rsa symmetric scheme keyBits exponent modulus) (.rsa alg n e)
  | ecc {symmetric scheme id kdf : UInt16} {x y x' y' : Bytes} {alg : Option Int} {curve : Curve} :
    curveOfId? id = some curve → x ≠ [] → y ≠ [] → x' ≠ [] → y' ≠ [] →
    x'.toNat = x.toNat → y'.toNat = y.toNat →
    Describes (.ecc symmetric scheme id kdf x y) (.ec2 alg curve x' y')

namespace PublicArea

/-- The bytes of an exponent write the number that it stands for. -/
theorem toNat_exponentBytes (exponent : UInt32) :
    (exponentBytes exponent).toNat = KeyValue.exponent exponent.toNat := by
  rw [exponentBytes, Bytes.toNat_trimZeros, Bytes.toNat_ofNat (UInt32.toNat_lt _)]
  unfold KeyValue.exponent
  by_cases h : exponent = 0
  · subst h
    rfl
  · have hne : exponent.toNat ≠ 0 := fun hzero => h (UInt32.toNat.inj hzero)
    rw [if_neg h, if_neg hne]

/-- An exponent has at least one byte. -/
theorem exponentBytes_ne_nil (exponent : UInt32) : exponentBytes exponent ≠ [] := by
  intro h
  have hzero := toNat_exponentBytes exponent
  rw [h] at hzero
  exact KeyValue.exponent_ne_zero _ hzero.symm

/-- The key that an area describes is compared by the numbers of the object. -/
theorem describes_iff {area : PublicArea} {key : CredentialKey} :
    area.body.Describes key ↔ ∃ p, area.key? = some p ∧ key.denotes p = .ok true := by
  obtain ⟨type, nameAlg, attributes, authPolicy, body⟩ := area
  simp only [CredentialKey.denotes_eq_true_iff]
  refine ⟨fun h => ?_, fun h => ?_⟩
  · cases h with
    | rsa hmodulus hn he hnumber hexponent =>
      refine ⟨_, rfl, ?_, ⟨hn, he⟩, hmodulus, exponentBytes_ne_nil _⟩
      simp [CredentialKey.value, PublicKey.value, hnumber, hexponent, toNat_exponentBytes]
    | ecc hcurve hx hy hx' hy' hnumber hnumber' =>
      refine ⟨_, congrArg (Option.map _) hcurve, ?_, ⟨hx', hy'⟩, hx, hy⟩
      simp [CredentialKey.value, PublicKey.value, hnumber, hnumber']
  · rcases h with ⟨p, hp, hvalue, hkey, hcomplete⟩
    cases body with
    | rsa symmetric scheme keyBits exponent modulus =>
      cases hp
      cases key with
      | rsa alg n e =>
        simp only [CredentialKey.value, PublicKey.value, KeyValue.rsa.injEq, toNat_exponentBytes,
          KeyValue.exponent_exponent] at hvalue
        exact .rsa hcomplete.1 hkey.1 hkey.2 hvalue.1 hvalue.2
      | ec2 _ _ _ _ => cases hvalue
      | okp _ _ => cases hvalue
    | ecc symmetric scheme id kdf x y =>
      obtain ⟨curve, hcurve, rfl⟩ := Option.map_eq_some_iff.1 hp
      cases key with
      | rsa _ _ _ => cases hvalue
      | ec2 alg curve' x' y' =>
        simp only [CredentialKey.value, PublicKey.value, KeyValue.ec.injEq] at hvalue
        obtain ⟨rfl, hx, hy⟩ := hvalue
        exact .ecc hcurve hcomplete.1 hcomplete.2 hkey.1 hkey.2 hx hy
      | okp _ _ => cases hvalue
    | other b => cases hp

/-- The bytes of a public area determine the value of the credential keys that it describes. -/
theorem value_eq_of_describes {b : Bytes} {area₁ area₂ : PublicArea} {k₁ k₂ : CredentialKey}
    (harea₁ : Encoding b area₁) (harea₂ : Encoding b area₂)
    (h₁ : area₁.body.Describes k₁) (h₂ : area₂.body.Describes k₂) : k₁.value = k₂.value := by
  rw [← parse_eq_ok_iff] at harea₁ harea₂
  obtain rfl := Except.ok.inj (harea₁.symm.trans harea₂)
  obtain ⟨p, hp, hdenotes⟩ := describes_iff.1 h₁
  obtain ⟨p', hp', hdenotes'⟩ := describes_iff.1 h₂
  obtain rfl := Option.some.inj (hp.symm.trans hp')
  rw [CredentialKey.denotes_eq_true_iff] at hdenotes hdenotes'
  exact CredentialKey.value_eq_of_denotes hdenotes hdenotes'

end PublicArea

end Attestation.Tpm
