import Attestation.Proofs.KeyValue

/-!
# Numbers that are missing

A number that is written by no byte at all is missing, and a comparison that comes to it fails.
`CredentialKey.FirstMissing` says which one it comes to first, and the comparison has no other
failures (`CredentialKey.denotes_eq_error_iff`). An RSA key is looked through before anything is
compared, but coordinates are compared one after the other. So a missing y-coordinate is overlooked
where the x-coordinates differ, and only there (`CredentialKey.refusesMissing_iff`).
-/

namespace Attestation

namespace CredentialKey

/-- The two keys are of one kind, on one curve if they are on curves, so that their numbers are
compared. -/
inductive Comparable : CredentialKey → PublicKey → Prop
  | rsa {alg : Option Int} {n e modulus exponent : Bytes} :
    Comparable (.rsa alg n e) (.rsa modulus exponent)
  | ec {alg : Option Int} {curve : Curve} {x y otherX otherY : Bytes} :
    Comparable (.ec2 alg curve x y) (.ec curve otherX otherY)
  | ed25519 {alg : Option Int} {x otherX : Bytes} : Comparable (.okp alg x) (.ed25519 otherX)

/-- The number that is the first one to be found missing, by its name. The credential key is looked
through before the other key, but a coordinate of both before the next one. The y-coordinates are
not looked at unless the x-coordinates are the same number. -/
inductive FirstMissing : CredentialKey → PublicKey → String → Prop
  | modulus {alg : Option Int} {n e modulus exponent : Bytes} :
    n = [] → FirstMissing (.rsa alg n e) (.rsa modulus exponent) "RSA modulus"
  | exponent {alg : Option Int} {n e modulus exponent : Bytes} :
    n ≠ [] → e = [] → FirstMissing (.rsa alg n e) (.rsa modulus exponent) "RSA exponent"
  | otherModulus {alg : Option Int} {n e modulus exponent : Bytes} :
    n ≠ [] → e ≠ [] → modulus = [] →
    FirstMissing (.rsa alg n e) (.rsa modulus exponent) "RSA modulus"
  | otherExponent {alg : Option Int} {n e modulus exponent : Bytes} :
    n ≠ [] → e ≠ [] → modulus ≠ [] → exponent = [] →
    FirstMissing (.rsa alg n e) (.rsa modulus exponent) "RSA exponent"
  | x {alg : Option Int} {curve : Curve} {x y otherX otherY : Bytes} :
    x = [] ∨ otherX = [] →
    FirstMissing (.ec2 alg curve x y) (.ec curve otherX otherY) "EC x-coordinate"
  | y {alg : Option Int} {curve : Curve} {x y otherX otherY : Bytes} :
    x ≠ [] → otherX ≠ [] → x.toNat = otherX.toNat → y = [] ∨ otherY = [] →
    FirstMissing (.ec2 alg curve x y) (.ec curve otherX otherY) "EC y-coordinate"
  | octets {alg : Option Int} {x otherX : Bytes} :
    x = [] ∨ otherX = [] → FirstMissing (.okp alg x) (.ed25519 otherX) "Ed25519 public key"

/-- A y-coordinate is missing, and the x-coordinates on the same curve are different numbers. -/
inductive Overlooks : CredentialKey → PublicKey → Prop
  | intro {alg : Option Int} {curve : Curve} {x y otherX otherY : Bytes} :
    x ≠ [] → otherX ≠ [] → x.toNat ≠ otherX.toNat → y = [] ∨ otherY = [] →
    Overlooks (.ec2 alg curve x y) (.ec curve otherX otherY)

/-- A missing number is refused wherever it stands and whatever the other numbers are. Keys whose
numbers are not compared are not the same key. -/
structure RefusesMissing (k : CredentialKey) (p : PublicKey) : Prop where
  refused_iff : k.Comparable p →
    ((∃ cause, k.denotes p = .error (.malformedInput cause)) ↔ ¬(k.Complete ∧ p.Complete))
  other : ¬k.Comparable p → k.denotes p = .ok false

/-! ## Failures -/

/-- A step that reads a number fails if the number is missing or if what follows fails. -/
theorem magnitude_bind_eq_error {α : Type} {field : String} {b : Bytes} {f : Bytes → Result α}
    {e : Error} : magnitude field b >>= f = .error e ↔
      b = [] ∧ e = .malformedInput (.emptyField field) ∨ b ≠ [] ∧ f b.trimZeros = .error e := by
  by_cases hb : b = []
  · subst hb
    refine ⟨fun h => ?_, fun h => ?_⟩
    · cases h
      exact .inl ⟨rfl, rfl⟩
    · rcases h with ⟨-, rfl⟩ | ⟨hb, -⟩
      · rfl
      · cases hb rfl
  · rw [magnitude_of_ne_nil hb]
    simp [hb, bind, Except.bind]

/-- Two numbers cannot be compared exactly if one of them is empty. -/
theorem sameNumber_eq_error {field : String} {a b : Bytes} {e : Error} :
    sameNumber field a b = .error e ↔
      (a = [] ∨ b = []) ∧ e = .malformedInput (.emptyField field) := by
  rw [sameNumber, magnitude_bind_eq_error, magnitude_bind_eq_error]
  by_cases ha : a = [] <;> simp [ha, pure, Except.pure]

/-- An RSA key is looked through number by number, and so is the key that it is compared with. -/
theorem firstMissing_of_rsa {alg : Option Int} {n exponent otherModulus otherExponent : Bytes}
    {e : Error} (h : (rsa alg n exponent).denotes (.rsa otherModulus otherExponent) = .error e) :
    ∃ field, FirstMissing (rsa alg n exponent) (.rsa otherModulus otherExponent) field ∧
      e = .malformedInput (.emptyField field) := by
  rcases magnitude_bind_eq_error.1 h with ⟨hnone, rfl⟩ | ⟨hn, h₁⟩
  · exact ⟨_, .modulus hnone, rfl⟩
  rcases magnitude_bind_eq_error.1 h₁ with ⟨hnone, rfl⟩ | ⟨hexponent, h₂⟩
  · exact ⟨_, .exponent hn hnone, rfl⟩
  rcases magnitude_bind_eq_error.1 h₂ with ⟨hnone, rfl⟩ | ⟨hmodulus, h₃⟩
  · exact ⟨_, .otherModulus hn hexponent hnone, rfl⟩
  rcases magnitude_bind_eq_error.1 h₃ with ⟨hnone, rfl⟩ | ⟨-, h₄⟩
  · exact ⟨_, .otherExponent hn hexponent hmodulus hnone, rfl⟩
  · cases h₄

/-- The y-coordinates are looked at where the x-coordinates are there and are the same number. -/
theorem firstMissing_of_ec {alg : Option Int} {curve otherCurve : Curve} {x y otherX otherY : Bytes}
    {e : Error} (h : (ec2 alg curve x y).denotes (.ec otherCurve otherX otherY) = .error e) :
    ∃ field, FirstMissing (ec2 alg curve x y) (.ec otherCurve otherX otherY) field ∧
      e = .malformedInput (.emptyField field) := by
  simp only [denotes] at h
  split at h
  · rename_i hcurve
    subst hcurve
    rcases bind_eq_error.1 h with hfails | ⟨sameX, hsame, h₁⟩
    · obtain ⟨hnone, rfl⟩ := sameNumber_eq_error.1 hfails
      exact ⟨_, .x hnone, rfl⟩
    obtain ⟨hx, hotherX⟩ := ne_nil_of_sameNumber hsame
    cases sameX with
    | true =>
      rw [sameNumber_of_ne_nil hx hotherX, Except.ok.injEq, decide_eq_true_iff] at hsame
      obtain ⟨hnone, rfl⟩ := sameNumber_eq_error.1 h₁
      exact ⟨_, .y hx hotherX hsame hnone, rfl⟩
    | false => cases h₁
  · cases h

/-- A comparison that fails names the first number that is missing. -/
theorem firstMissing_of_denotes {k : CredentialKey} {p : PublicKey} {e : Error}
    (h : k.denotes p = .error e) :
    ∃ field, k.FirstMissing p field ∧ e = .malformedInput (.emptyField field) := by
  cases k with
  | rsa _ _ _ =>
    cases p with
    | rsa _ _ => exact firstMissing_of_rsa h
    | ec _ _ _ | ed25519 _ => cases h
  | ec2 _ _ _ _ =>
    cases p with
    | ec _ _ _ => exact firstMissing_of_ec h
    | rsa _ _ | ed25519 _ => cases h
  | okp _ _ =>
    cases p with
    | ed25519 _ =>
      simp only [denotes] at h
      split at h
      · rename_i hnone
        cases h
        exact ⟨_, .octets hnone, rfl⟩
      · cases h
    | rsa _ _ | ec _ _ _ => cases h

/-- A comparison fails for the first number that is missing. -/
theorem denotes_of_firstMissing {k : CredentialKey} {p : PublicKey} {field : String}
    (h : k.FirstMissing p field) : k.denotes p = .error (.malformedInput (.emptyField field)) := by
  cases h with
  | modulus hnone => exact magnitude_bind_eq_error.2 (.inl ⟨hnone, rfl⟩)
  | exponent hn hnone =>
    refine magnitude_bind_eq_error.2 (.inr ⟨hn, ?_⟩)
    exact magnitude_bind_eq_error.2 (.inl ⟨hnone, rfl⟩)
  | otherModulus hn he hnone =>
    refine magnitude_bind_eq_error.2 (.inr ⟨hn, ?_⟩)
    refine magnitude_bind_eq_error.2 (.inr ⟨he, ?_⟩)
    exact magnitude_bind_eq_error.2 (.inl ⟨hnone, rfl⟩)
  | otherExponent hn he hmodulus hnone =>
    refine magnitude_bind_eq_error.2 (.inr ⟨hn, ?_⟩)
    refine magnitude_bind_eq_error.2 (.inr ⟨he, ?_⟩)
    refine magnitude_bind_eq_error.2 (.inr ⟨hmodulus, ?_⟩)
    exact magnitude_bind_eq_error.2 (.inl ⟨hnone, rfl⟩)
  | x hnone =>
    rw [denotes, if_pos rfl]
    exact bind_eq_error.2 (.inl (sameNumber_eq_error.2 ⟨hnone, rfl⟩))
  | y hx hotherX hsame hnone =>
    rw [denotes, if_pos rfl, sameNumber_of_ne_nil hx hotherX, decide_eq_true hsame]
    exact sameNumber_eq_error.2 ⟨hnone, rfl⟩
  | octets hnone => exact if_pos hnone

/-- The comparison fails at the first number that it finds missing, and fails for nothing else. -/
theorem denotes_eq_error_iff {k : CredentialKey} {p : PublicKey} {e : Error} :
    k.denotes p = .error e ↔
      ∃ field, k.FirstMissing p field ∧ e = .malformedInput (.emptyField field) := by
  refine ⟨firstMissing_of_denotes, fun h => ?_⟩
  rcases h with ⟨field, hfield, rfl⟩
  exact denotes_of_firstMissing hfield

/-! ## Missing numbers -/

/-- Keys whose numbers are not compared are not the same key. -/
theorem denotes_of_not_comparable {k : CredentialKey} {p : PublicKey} (h : ¬k.Comparable p) :
    k.denotes p = .ok false := by
  cases k with
  | rsa _ _ _ =>
    cases p with
    | rsa _ _ => exact absurd .rsa h
    | ec _ _ _ | ed25519 _ => rfl
  | ec2 _ curve _ _ =>
    cases p with
    | ec otherCurve _ _ =>
      have hcurve : curve ≠ otherCurve := by
        rintro rfl
        exact h .ec
      exact if_neg hcurve
    | rsa _ _ | ed25519 _ => rfl
  | okp _ _ =>
    cases p with
    | ed25519 _ => exact absurd .ed25519 h
    | rsa _ _ | ec _ _ _ => rfl

/-- A missing coordinate is overlooked where the ones before it differ. -/
theorem denotes_of_overlooks {k : CredentialKey} {p : PublicKey} (h : k.Overlooks p) :
    k.denotes p = .ok false := by
  cases h with
  | intro hx hotherX hdiffer _ =>
    rw [denotes, if_pos rfl, sameNumber_of_ne_nil hx hotherX, decide_eq_false hdiffer]
    rfl

/-- What is overlooked is a number that is missing, in keys that could be compared. -/
theorem Overlooks.incomplete {k : CredentialKey} {p : PublicKey} (h : k.Overlooks p) :
    k.Comparable p ∧ ¬(k.Complete ∧ p.Complete) := by
  cases h with
  | intro _ _ _ hnone =>
    refine ⟨.ec, fun ⟨hk, hp⟩ => ?_⟩
    rcases hnone with hy | hotherY
    · exact hk.2 hy
    · exact hp.2 hotherY

/-- One of the missing numbers is found first, unless it is overlooked. -/
theorem exists_firstMissing {k : CredentialKey} {p : PublicKey} (hcompared : k.Comparable p)
    (hseen : ¬k.Overlooks p) (hmissing : ¬(k.Complete ∧ p.Complete)) :
    ∃ field, k.FirstMissing p field := by
  cases hcompared with
  | @rsa _ n e modulus exponent =>
    by_cases hn : n = []
    · exact ⟨_, .modulus hn⟩
    by_cases he : e = []
    · exact ⟨_, .exponent hn he⟩
    by_cases hmodulus : modulus = []
    · exact ⟨_, .otherModulus hn he hmodulus⟩
    by_cases hexponent : exponent = []
    · exact ⟨_, .otherExponent hn he hmodulus hexponent⟩
    · exact absurd ⟨⟨hn, he⟩, hmodulus, hexponent⟩ hmissing
  | @ec _ _ x y otherX otherY =>
    by_cases hx : x = [] ∨ otherX = []
    · exact ⟨_, .x hx⟩
    obtain ⟨hx, hotherX⟩ := not_or.1 hx
    by_cases hy : y = [] ∨ otherY = []
    · by_cases hsame : x.toNat = otherX.toNat
      · exact ⟨_, .y hx hotherX hsame hy⟩
      · exact absurd (.intro hx hotherX hsame hy) hseen
    · obtain ⟨hy, hotherY⟩ := not_or.1 hy
      exact absurd ⟨⟨hx, hy⟩, hotherX, hotherY⟩ hmissing
  | @ed25519 _ x otherX =>
    by_cases hx : x = [] ∨ otherX = []
    · exact ⟨_, .octets hx⟩
    · exact absurd (not_or.1 hx) hmissing

/-- A missing number is refused, whatever the others are, unless it is a y-coordinate of keys whose
x-coordinates differ; these are said not to be the same key. What is refused is said of the first
number that is found missing, and the comparison fails for nothing else. -/
theorem refusesMissing_iff (k : CredentialKey) (p : PublicKey) :
    (k.RefusesMissing p ↔ ¬k.Overlooks p) ∧ (k.Overlooks p → k.denotes p = .ok false) ∧
    ∀ e, k.denotes p = .error e ↔
      ∃ field, k.FirstMissing p field ∧ e = .malformedInput (.emptyField field) := by
  refine ⟨⟨fun h hoverlooks => ?_, fun hseen => ⟨fun hcompared => ⟨?_, ?_⟩, ?_⟩⟩,
    denotes_of_overlooks, fun e => denotes_eq_error_iff⟩
  · obtain ⟨hcompared, hmissing⟩ := hoverlooks.incomplete
    obtain ⟨cause, hfails⟩ := (h.refused_iff hcompared).2 hmissing
    cases hfails.symm.trans (denotes_of_overlooks hoverlooks)
  · rintro ⟨cause, hfails⟩ ⟨hk, hp⟩
    cases hfails.symm.trans (denotes_of_complete hk hp)
  · intro hmissing
    obtain ⟨field, hfield⟩ := exists_firstMissing hcompared hseen hmissing
    exact ⟨_, denotes_of_firstMissing hfield⟩
  · exact denotes_of_not_comparable

/-- An exponent is refused as missing although the moduli differ; a y-coordinate is overlooked where
the x-coordinates do. -/
theorem refusesMissing_rsa :
    (rsa none [5] [3]).RefusesMissing (.rsa [6] []) ∧
      (rsa none [5] [3]).denotes (.rsa [6] []) =
        .error (.malformedInput (.emptyField "RSA exponent")) ∧
      (ec2 none .p256 [1] [2]).Overlooks (.ec .p256 [3] []) ∧
      (ec2 none .p256 [1] [2]).denotes (.ec .p256 [3] []) = .ok false := by
  have hseen : ¬(rsa none [5] [3]).Overlooks (.rsa [6] []) := nofun
  have hfirst : FirstMissing (rsa none [5] [3]) (.rsa [6] []) "RSA exponent" :=
    .otherExponent nofun nofun nofun rfl
  have hoverlooks : (ec2 none .p256 [1] [2]).Overlooks (.ec .p256 [3] []) :=
    .intro nofun nofun (by decide) (.inr rfl)
  exact ⟨(refusesMissing_iff _ _).1.2 hseen,
    ((refusesMissing_iff _ _).2.2 _).2 ⟨_, hfirst, rfl⟩, hoverlooks,
    (refusesMissing_iff _ _).2.1 hoverlooks⟩

/-- The y-coordinate of the credential key is missing. The x-coordinates differ, so that the keys
are said not to be the same key where the missing number had to be refused. -/
theorem not_refusesMissing_ec :
    (ec2 none .p256 [1] []).Comparable (.ec .p256 [2] [3]) ∧ ¬(ec2 none .p256 [1] []).Complete ∧
      (ec2 none .p256 [1] []).denotes (.ec .p256 [2] [3]) = .ok false ∧
      ¬(ec2 none .p256 [1] []).RefusesMissing (.ec .p256 [2] [3]) := by
  have hincomplete : ¬(ec2 none .p256 [1] []).Complete := fun h => h.2 rfl
  have hdenotes : (ec2 none .p256 [1] []).denotes (.ec .p256 [2] [3]) = .ok false := by decide
  refine ⟨.ec, hincomplete, hdenotes, fun h => ?_⟩
  obtain ⟨cause, hfails⟩ := (h.refused_iff .ec).2 fun hboth => hincomplete hboth.1
  cases hfails.symm.trans hdenotes

end CredentialKey

end Attestation
