import Attestation.Proofs.Number
import Attestation.Proofs.Result
import Attestation.PublicKey

/-!
# Keys as numbers

The value of a key has the numbers that its byte strings write; an RSA exponent of zero is the
number 65537 that it stands for. A credential key denotes a key (`CredentialKey.Denotes`) if the two
have the same value and none of their numbers is written by no byte at all, and this is what the
comparison finds (`CredentialKey.denotes_eq_true_iff`).
-/

namespace Attestation

/-- What a public key is, apart from how its numbers are written. -/
inductive KeyValue where
  | rsa (modulus exponent : Nat)
  | ec (curve : Curve) (x y : Nat)
  /-- A key of this family is a byte string and no number. -/
  | ed25519 (x : Bytes)
  deriving DecidableEq, Repr

/-- The exponent that a number stands for: 65537 for zero, and itself otherwise. -/
def KeyValue.exponent (n : Nat) : Nat :=
  if n = 0 then 65537 else n

/-- No exponent is zero. -/
theorem KeyValue.exponent_ne_zero (n : Nat) : exponent n ≠ 0 := by
  unfold exponent
  split
  · decide
  · assumption

/-- What an exponent stands for stands for itself. -/
@[simp] theorem KeyValue.exponent_exponent (n : Nat) : exponent (exponent n) = exponent n :=
  if_neg (exponent_ne_zero n)

namespace PublicKey

/-- The value of the key. -/
def value : PublicKey → KeyValue
  | rsa modulus exponent => .rsa modulus.toNat (KeyValue.exponent exponent.toNat)
  | ec curve x y => .ec curve x.toNat y.toNat
  | ed25519 x => .ed25519 x

/-- No number of the key is written by no byte at all. -/
def Complete : PublicKey → Prop
  | rsa modulus exponent => modulus ≠ [] ∧ exponent ≠ []
  | ec _ x y => x ≠ [] ∧ y ≠ []
  | ed25519 x => x ≠ []

end PublicKey

namespace CredentialKey

/-- The value of the key; the algorithm that it is meant for does not belong to it. -/
def value : CredentialKey → KeyValue
  | rsa _ modulus exponent => .rsa modulus.toNat (KeyValue.exponent exponent.toNat)
  | ec2 _ curve x y => .ec curve x.toNat y.toNat
  | okp _ x => .ed25519 x

/-- No number of the key is written by no byte at all. -/
def Complete : CredentialKey → Prop
  | rsa _ modulus exponent => modulus ≠ [] ∧ exponent ≠ []
  | ec2 _ _ x y => x ≠ [] ∧ y ≠ []
  | okp _ x => x ≠ []

/-- The credential key is the given key, as numbers, and none of these is missing. -/
structure Denotes (k : CredentialKey) (p : PublicKey) : Prop where
  value_eq : k.value = p.value
  complete : k.Complete
  complete_key : p.Complete

/-! ## Numbers -/

/-- A number that is not empty has a magnitude. -/
theorem magnitude_of_ne_nil {b : Bytes} (h : b ≠ []) (field : String) :
    magnitude field b = .ok b.trimZeros :=
  if_neg h

/-- A number with a magnitude is not empty. -/
theorem ne_nil_of_magnitude {field : String} {b t : Bytes} (h : magnitude field b = .ok t) :
    b ≠ [] := by
  rintro rfl
  cases h

/-- Trimmed byte strings are compared as the numbers that they write. -/
theorem sameNumber_of_ne_nil {a b : Bytes} (ha : a ≠ []) (hb : b ≠ []) (field : String) :
    sameNumber field a b = .ok (decide (a.toNat = b.toNat)) := by
  simp only [sameNumber, magnitude_of_ne_nil ha, magnitude_of_ne_nil hb]
  refine congrArg Except.ok (Bool.eq_iff_iff.2 ?_)
  rw [beq_iff_eq, decide_eq_true_iff, Bytes.trimZeros_eq_iff]

/-- Numbers that were compared are not empty. -/
theorem ne_nil_of_sameNumber {field : String} {a b : Bytes} {same : Bool}
    (h : sameNumber field a b = .ok same) : a ≠ [] ∧ b ≠ [] := by
  obtain ⟨_, ha, hrest⟩ := bind_eq_ok.1 h
  obtain ⟨_, hb, -⟩ := bind_eq_ok.1 hrest
  exact ⟨ne_nil_of_magnitude ha, ne_nil_of_magnitude hb⟩

/-- Trimming an exponent and putting in the default one gives the shortest byte string of the
exponent that it stands for. -/
theorem effectiveExponent_trimZeros (e : Bytes) :
    ∃ b : Bytes, effectiveExponent e.trimZeros = b.trimZeros ∧
      b.toNat = KeyValue.exponent e.toNat := by
  unfold effectiveExponent KeyValue.exponent
  simp only [Bytes.trimZeros_eq_nil_iff]
  split
  · exact ⟨defaultExponent, rfl, rfl⟩
  · exact ⟨e, rfl, rfl⟩

/-- Exponents are compared as the numbers that they stand for. -/
theorem effectiveExponent_eq_iff {e e' : Bytes} :
    effectiveExponent e.trimZeros = effectiveExponent e'.trimZeros ↔
      KeyValue.exponent e.toNat = KeyValue.exponent e'.toNat := by
  obtain ⟨b, hb, hexponent⟩ := effectiveExponent_trimZeros e
  obtain ⟨b', hb', hexponent'⟩ := effectiveExponent_trimZeros e'
  rw [hb, hb', Bytes.trimZeros_eq_iff, hexponent, hexponent']

/-! ## Denotation -/

/-- Keys with all their numbers are compared by their values. -/
theorem denotes_of_complete {k : CredentialKey} {p : PublicKey} (hk : k.Complete)
    (hp : p.Complete) : k.denotes p = .ok (decide (k.value = p.value)) := by
  cases k with
  | rsa alg n e =>
    cases p with
    | rsa modulus exponent =>
      simp only [denotes, magnitude_of_ne_nil hk.1, magnitude_of_ne_nil hk.2,
        magnitude_of_ne_nil hp.1, magnitude_of_ne_nil hp.2]
      refine congrArg Except.ok (Bool.eq_iff_iff.2 ?_)
      rw [Bool.and_eq_true, beq_iff_eq, beq_iff_eq, decide_eq_true_iff, Bytes.trimZeros_eq_iff,
        effectiveExponent_eq_iff, value, PublicKey.value, KeyValue.rsa.injEq]
    | ec _ _ _ => simp [denotes, value, PublicKey.value]
    | ed25519 _ => simp [denotes, value, PublicKey.value]
  | ec2 alg curve x y =>
    cases p with
    | rsa _ _ => simp [denotes, value, PublicKey.value]
    | ec otherCurve otherX otherY =>
      by_cases hcurve : curve = otherCurve
      · simp only [denotes, if_pos hcurve, sameNumber_of_ne_nil hk.1 hp.1,
          sameNumber_of_ne_nil hk.2 hp.2]
        -- The second coordinates are compared only where the first ones agree.
        by_cases hx : x.toNat = otherX.toNat
        · simp [hcurve, hx, value, PublicKey.value, bind, Except.bind]
        · simp [hx, value, PublicKey.value, bind, Except.bind, pure, Except.pure]
      · simp [denotes, hcurve, value, PublicKey.value]
    | ed25519 _ => simp [denotes, value, PublicKey.value]
  | okp alg x =>
    cases p with
    | rsa _ _ => simp [denotes, value, PublicKey.value]
    | ec _ _ _ => simp [denotes, value, PublicKey.value]
    | ed25519 otherX =>
      have hnone : ¬(x = [] ∨ otherX = []) := not_or.2 ⟨hk, hp⟩
      simp only [denotes, if_neg hnone, value, PublicKey.value, KeyValue.ed25519.injEq]
      exact congrArg Except.ok (Bool.eq_iff_iff.2 (by simp))

/-- Keys that are found to be the same have all their numbers. -/
theorem complete_of_denotes {k : CredentialKey} {p : PublicKey} (h : k.denotes p = .ok true) :
    k.Complete ∧ p.Complete := by
  cases k with
  | rsa alg n e =>
    cases p with
    | rsa modulus exponent =>
      obtain ⟨_, hn, h₁⟩ := bind_eq_ok.1 h
      obtain ⟨_, he, h₂⟩ := bind_eq_ok.1 h₁
      obtain ⟨_, hmodulus, h₃⟩ := bind_eq_ok.1 h₂
      obtain ⟨_, hexponent, -⟩ := bind_eq_ok.1 h₃
      exact ⟨⟨ne_nil_of_magnitude hn, ne_nil_of_magnitude he⟩,
        ne_nil_of_magnitude hmodulus, ne_nil_of_magnitude hexponent⟩
    | ec _ _ _ => cases h
    | ed25519 _ => cases h
  | ec2 alg curve x y =>
    cases p with
    | rsa _ _ => cases h
    | ec otherCurve otherX otherY =>
      simp only [denotes] at h
      split at h
      · obtain ⟨sameX, hx, hrest⟩ := bind_eq_ok.1 h
        cases sameX with
        | true =>
          obtain ⟨hxne, hotherX⟩ := ne_nil_of_sameNumber hx
          obtain ⟨hyne, hotherY⟩ := ne_nil_of_sameNumber hrest
          exact ⟨⟨hxne, hyne⟩, hotherX, hotherY⟩
        -- Where the first coordinates differ, the keys are not found to be the same.
        | false => cases hrest
      · cases h
    | ed25519 _ => cases h
  | okp alg x =>
    cases p with
    | rsa _ _ => cases h
    | ec _ _ _ => cases h
    | ed25519 otherX =>
      simp only [denotes] at h
      split at h
      · cases h
      · rename_i hnone
        exact not_or.1 hnone

/-- The credential key is the other key if they are the same as numbers and none is left out. -/
theorem denotes_eq_true_iff {k : CredentialKey} {p : PublicKey} :
    k.denotes p = .ok true ↔ k.Denotes p := by
  refine ⟨fun h => ?_, fun h => ?_⟩
  · obtain ⟨hk, hp⟩ := complete_of_denotes h
    rw [denotes_of_complete hk hp] at h
    exact ⟨of_decide_eq_true (Except.ok.inj h), hk, hp⟩
  · rcases h with ⟨hvalue, hk, hp⟩
    rw [denotes_of_complete hk hp, decide_eq_true hvalue]

/-- The key that credential keys denote determines their value. -/
theorem value_eq_of_denotes {k₁ k₂ : CredentialKey} {p : PublicKey}
    (h₁ : k₁.Denotes p) (h₂ : k₂.Denotes p) : k₁.value = k₂.value :=
  h₁.value_eq.trans h₂.value_eq.symm

end CredentialKey

end Attestation
