import Attestation.Proofs.KeyValue

/-!
# Keys that are the same key

A credential key and a public key are the same key if they are of one kind and agree number by
number (`CredentialKey.SameKey`). Where none of the numbers is written by no byte at all, this is
what the comparison tells, and it never fails; so it depends neither on the algorithm that the
credential key is meant for nor on zero bytes before a number (`CredentialKey.denotes_iff_sameKey`).
-/

namespace Attestation

/-- The byte string with that many zero bytes before it. -/
def Bytes.withZeros (count : Nat) (b : Bytes) : Bytes :=
  List.replicate count 0 ++ b

namespace Bytes

/-- Zero bytes before a number do not count. -/
@[simp] theorem toNat_withZeros (count : Nat) (b : Bytes) :
    toNat (withZeros count b) = toNat b := by
  induction count with
  | zero => rfl
  | succ count ih =>
    have hcons : withZeros (count + 1) b = 0 :: withZeros count b := rfl
    rw [hcons, toNat_cons, ih]
    simp

/-- Zero bytes before a number do not make it empty. -/
theorem withZeros_ne_nil {b : Bytes} (h : b ≠ []) (count : Nat) : withZeros count b ≠ [] :=
  List.append_ne_nil_of_right_ne_nil _ h

end Bytes

namespace PublicKey

/-- The public key with zero bytes before its first and before its second number. A key that is a
byte string and no number stays as it is. -/
def withZeros (first second : Nat) : PublicKey → PublicKey
  | rsa modulus exponent => rsa (modulus.withZeros first) (exponent.withZeros second)
  | ec curve x y => ec curve (x.withZeros first) (y.withZeros second)
  | ed25519 x => ed25519 x

/-- Zero bytes before the numbers of a key do not change which key it is. -/
theorem value_withZeros (first second : Nat) (p : PublicKey) :
    (p.withZeros first second).value = p.value := by
  cases p <;> simp [withZeros, value]

/-- Zero bytes before the numbers of a key leave none of them empty. -/
theorem Complete.withZeros {p : PublicKey} (h : p.Complete) (first second : Nat) :
    (p.withZeros first second).Complete := by
  cases p with
  | rsa modulus exponent =>
    exact ⟨Bytes.withZeros_ne_nil h.1 first, Bytes.withZeros_ne_nil h.2 second⟩
  | ec curve x y => exact ⟨Bytes.withZeros_ne_nil h.1 first, Bytes.withZeros_ne_nil h.2 second⟩
  | ed25519 x => exact h

end PublicKey

namespace CredentialKey

/-- The same kind of key with the same numbers: an exponent of zero is 65537, and a key of the
family Ed25519 is the byte string itself. -/
inductive SameKey : CredentialKey → PublicKey → Prop
  | rsa {alg : Option Int} {n e modulus exponent : Bytes} :
    n.toNat = modulus.toNat →
    (if e.toNat = 0 then 65537 else e.toNat) =
      (if exponent.toNat = 0 then 65537 else exponent.toNat) →
    SameKey (.rsa alg n e) (.rsa modulus exponent)
  | ec {alg : Option Int} {curve : Curve} {x y otherX otherY : Bytes} :
    x.toNat = otherX.toNat → y.toNat = otherY.toNat →
    SameKey (.ec2 alg curve x y) (.ec curve otherX otherY)
  | ed25519 {alg : Option Int} {x : Bytes} : SameKey (.okp alg x) (.ed25519 x)

/-- The key for another algorithm, with zero bytes before its first and before its second number. -/
def rewritten (alg : Option Int) (first second : Nat) : CredentialKey → CredentialKey
  | rsa _ n e => rsa alg (n.withZeros first) (e.withZeros second)
  | ec2 _ curve x y => ec2 alg curve (x.withZeros first) (y.withZeros second)
  | okp _ x => okp alg x

/-! ## Values -/

/-- Keys are the same key if they have the same value. -/
theorem sameKey_iff {k : CredentialKey} {p : PublicKey} : k.SameKey p ↔ k.value = p.value := by
  refine ⟨fun h => ?_, fun h => ?_⟩
  · cases h with
    | rsa hmodulus hexponent => exact (KeyValue.rsa.injEq ..).mpr ⟨hmodulus, hexponent⟩
    | ec hx hy => exact (KeyValue.ec.injEq ..).mpr ⟨rfl, hx, hy⟩
    | ed25519 => rfl
  · cases k with
    | rsa alg n e =>
      cases p with
      | rsa modulus exponent =>
        obtain ⟨hmodulus, hexponent⟩ := KeyValue.rsa.inj h
        exact .rsa hmodulus hexponent
      | ec _ _ _ => cases h
      | ed25519 _ => cases h
    | ec2 alg curve x y =>
      cases p with
      | rsa _ _ => cases h
      | ec otherCurve otherX otherY =>
        obtain ⟨rfl, hx, hy⟩ := KeyValue.ec.inj h
        exact .ec hx hy
      | ed25519 _ => cases h
    | okp alg x =>
      cases p with
      | rsa _ _ => cases h
      | ec _ _ _ => cases h
      | ed25519 otherX =>
        obtain rfl := KeyValue.ed25519.inj h
        exact .ed25519

instance (k : CredentialKey) (p : PublicKey) : Decidable (k.SameKey p) :=
  decidable_of_iff _ sameKey_iff.symm

/-- Keys with all their numbers are compared by whether they are the same key. -/
theorem denotes_eq_decide {k : CredentialKey} {p : PublicKey} (hk : k.Complete)
    (hp : p.Complete) : k.denotes p = .ok (decide (k.SameKey p)) := by
  rw [denotes_of_complete hk hp]
  exact congrArg Except.ok (decide_eq_decide.2 sameKey_iff.symm)

/-! ## Other ways to write a key -/

/-- A key that is written in another way is the same key. -/
theorem value_rewritten (alg : Option Int) (first second : Nat) (k : CredentialKey) :
    (k.rewritten alg first second).value = k.value := by
  cases k <;> simp [rewritten, value]

/-- A key that is written in another way still has all its numbers. -/
theorem Complete.rewritten {k : CredentialKey} (h : k.Complete) (alg : Option Int)
    (first second : Nat) : (k.rewritten alg first second).Complete := by
  cases k with
  | rsa _ n e => exact ⟨Bytes.withZeros_ne_nil h.1 first, Bytes.withZeros_ne_nil h.2 second⟩
  | ec2 _ curve x y => exact ⟨Bytes.withZeros_ne_nil h.1 first, Bytes.withZeros_ne_nil h.2 second⟩
  | okp _ x => exact h

/-- Neither the algorithm nor zero bytes before a number matter to the comparison. -/
theorem denotes_rewritten {k : CredentialKey} {p : PublicKey} (hk : k.Complete) (hp : p.Complete)
    (alg : Option Int) (first second first' second' : Nat) :
    (k.rewritten alg first second).denotes (p.withZeros first' second') = k.denotes p := by
  have hk' := hk.rewritten alg first second
  have hp' := hp.withZeros first' second'
  rw [denotes_of_complete hk' hp', denotes_of_complete hk hp, value_rewritten,
    PublicKey.value_withZeros]

/-- The algorithm does not matter either where a number is missing. -/
theorem denotes_otherAlg (k : CredentialKey) (p : PublicKey) (alg : Option Int) :
    (k.rewritten alg 0 0).denotes p = k.denotes p := by
  cases k <;> cases p <;> rfl

/-! ## The comparison -/

/-- Two keys none of whose numbers is missing are found to be the same if they are of one kind and
agree number by number, and are found not to be the same otherwise. Zero bytes before a number
change nothing, on either side, and the algorithm never does. -/
theorem denotes_iff_sameKey (k : CredentialKey) (p : PublicKey) :
    (k.Complete → p.Complete →
      (k.denotes p = .ok true ↔ k.SameKey p) ∧ (k.denotes p = .ok false ↔ ¬k.SameKey p) ∧
      ∀ alg first second first' second',
        (k.rewritten alg first second).denotes (p.withZeros first' second') = k.denotes p) ∧
    ∀ alg, (k.rewritten alg 0 0).denotes p = k.denotes p := by
  refine ⟨fun hk hp => ⟨?_, ?_, denotes_rewritten hk hp⟩, denotes_otherAlg k p⟩
  · rw [denotes_eq_decide hk hp, Except.ok.injEq, decide_eq_true_iff]
  · rw [denotes_eq_decide hk hp, Except.ok.injEq, decide_eq_false_iff_not]

/-- An exponent of four zero bytes is the one that is written out, and a zero byte before the
modulus does not count; another modulus is another key. -/
theorem denotes_iff_sameKey_rsa :
    (rsa none [0, 5] [0, 0, 0, 0]).Complete ∧ (PublicKey.rsa [5] [1, 0, 1]).Complete ∧
      (rsa none [0, 5] [0, 0, 0, 0]).denotes (.rsa [5] [1, 0, 1]) = .ok true ∧
      (rsa none [0, 5] [0, 0, 0, 0]).denotes (.rsa [6] [1, 0, 1]) = .ok false := by
  have hk : (rsa none [0, 5] [0, 0, 0, 0]).Complete := ⟨nofun, nofun⟩
  have hp : (PublicKey.rsa [5] [1, 0, 1]).Complete := ⟨nofun, nofun⟩
  have hq : (PublicKey.rsa [6] [1, 0, 1]).Complete := ⟨nofun, nofun⟩
  have hsame : (rsa none [0, 5] [0, 0, 0, 0]).SameKey (.rsa [5] [1, 0, 1]) :=
    .rsa rfl (by simp [Bytes.toNat])
  have hother : ¬(rsa none [0, 5] [0, 0, 0, 0]).SameKey (.rsa [6] [1, 0, 1]) := by decide
  exact ⟨hk, hp, ((denotes_iff_sameKey _ _).1 hk hp).1.2 hsame,
    ((denotes_iff_sameKey _ _).1 hk hq).2.1.2 hother⟩

end CredentialKey

end Attestation
