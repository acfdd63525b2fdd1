import Attestation.Proofs.PublicKey.Point

/-!
# Algorithms and the keys they go with

An algorithm is for keys on one curve, for keys of the family Ed25519, or for RSA keys, and it
stands for one way to verify signatures under them. `Algorithm.Suits` and `Algorithm.Accepts` say so
by the tables of the registry (`Algorithm.EcdsaScheme`, `Algorithm.RsaScheme`), without the order in
which a verification looks at algorithm and key. Every verification comes to one of four outcomes
(`Algorithm.outcome_verify`), and which one it is, is told by the two relations
(`Algorithm.verify_cases_iff`).
-/

namespace Attestation

/-- The coordinates are numbers that the curve of the key has room for. Other keys have none. -/
def PublicKey.Fits : PublicKey → Prop
  | ec curve x y => curve.Fits x y
  | rsa _ _ => True
  | ed25519 _ => True

namespace Algorithm

/-! ## The registry -/

/-- The curve of the keys and the hash function of an algorithm for keys on a curve. -/
inductive EcdsaScheme : Algorithm → Curve → PrimeCurve → Digest → Prop
  | es256 : EcdsaScheme es256 .p256 .p256 .sha256
  | es384 : EcdsaScheme es384 .p384 .p384 .sha384

/-- The encoding of the hashed message and the hash function of an algorithm for RSA keys. -/
inductive RsaScheme : Algorithm → Rsa.Padding → Digest → Prop
  | rs256 : RsaScheme rs256 .pkcs1 .sha256
  | rs384 : RsaScheme rs384 .pkcs1 .sha384
  | rs512 : RsaScheme rs512 .pkcs1 .sha512
  | ps256 : RsaScheme ps256 .pss .sha256
  | ps384 : RsaScheme ps384 .pss .sha384
  | ps512 : RsaScheme ps512 .pss .sha512
  | rs1 : RsaScheme rs1 .pkcs1 .sha1

/-- The algorithm goes with the key. -/
inductive Suits : Algorithm → PublicKey → Prop
  | ecdsa {alg : Algorithm} {curve : Curve} {c : PrimeCurve} {digest : Digest} {x y : Bytes} :
    EcdsaScheme alg curve c digest → Suits alg (.ec curve x y)
  | edDSA {x : Bytes} : Suits edDSA (.ed25519 x)
  | rsa {alg : Algorithm} {padding : Rsa.Padding} {digest : Digest} {modulus exponent : Bytes} :
    RsaScheme alg padding digest → Suits alg (.rsa modulus exponent)

/-- The signature is one of the message, in the way that the algorithm stands for: under the point
with the coordinates of the key, under the bytes of the key, or under its two numbers. -/
inductive Accepts : Algorithm → PublicKey → (message sig : Bytes) → Prop
  | ecdsa {alg : Algorithm} {curve : Curve} {c : PrimeCurve} {digest : Digest}
      {x y message sig : Bytes} :
    EcdsaScheme alg curve c digest → curve.Fits x y →
    Ecdsa.verify c digest (curve.pointBytes x.toNat y.toNat) message
      (Ecdsa.Signature.ofDer? sig) = true →
    Accepts alg (.ec curve x y) message sig
  | edDSA {x message sig : Bytes} :
    Ed25519.verify x message sig = true → Accepts edDSA (.ed25519 x) message sig
  | rsa {alg : Algorithm} {padding : Rsa.Padding} {digest : Digest}
      {modulus exponent message sig : Bytes} :
    RsaScheme alg padding digest →
    Rsa.verify padding digest modulus exponent message sig = true →
    Accepts alg (.rsa modulus exponent) message sig

section
variable {alg : Algorithm} {key : PublicKey} {message sig : Bytes}

/-- An algorithm signs on one curve and with one hash. -/
theorem EcdsaScheme.unique {curve curve' : Curve} {c c' : PrimeCurve} {digest digest' : Digest}
    (h : EcdsaScheme alg curve c digest) (h' : EcdsaScheme alg curve' c' digest') :
    curve = curve' ∧ c = c' ∧ digest = digest' := by
  cases h <;> cases h' <;> exact ⟨rfl, rfl, rfl⟩

/-- The scheme of an algorithm for RSA keys is the one that it is looked up as. -/
theorem rsaScheme?_eq_some {padding : Rsa.Padding} {digest : Digest} :
    alg.rsaScheme? = some (padding, digest) ↔ RsaScheme alg padding digest := by
  refine ⟨fun h => ?_, fun h => ?_⟩
  · cases alg <;> cases h <;> constructor
  · cases h <;> rfl

/-- No key suits the algorithm that is not supported. -/
theorem Suits.ne_es512 (h : alg.Suits key) : alg ≠ es512 := by
  rintro rfl
  cases h with
  | ecdsa hscheme => cases hscheme
  | rsa hscheme => cases hscheme

/-- A key under which a signature is accepted suits the algorithm. -/
theorem Accepts.suits (h : alg.Accepts key message sig) : alg.Suits key := by
  cases h with
  | ecdsa hscheme _ _ => exact .ecdsa hscheme
  | edDSA _ => exact .edDSA
  | rsa hscheme _ => exact .rsa hscheme

/-- A key under which a signature is accepted has coordinates of the right length. -/
theorem Accepts.fits (h : alg.Accepts key message sig) : key.Fits := by
  cases h with
  | ecdsa _ hfits _ => exact hfits
  | edDSA _ | rsa _ _ => trivial

/-- A signature on a curve is accepted if it verifies for the point of the key. -/
theorem accepts_ecdsa_iff {curve : Curve} {c : PrimeCurve} {digest : Digest} {x y : Bytes}
    (hscheme : EcdsaScheme alg curve c digest) (hfits : curve.Fits x y) :
    alg.Accepts (.ec curve x y) message sig ↔
      Ecdsa.verify c digest (curve.pointBytes x.toNat y.toNat) message
        (Ecdsa.Signature.ofDer? sig) = true := by
  refine ⟨fun h => ?_, .ecdsa hscheme hfits⟩
  cases h with
  | ecdsa hscheme' _ hverify =>
    obtain ⟨-, rfl, rfl⟩ := hscheme.unique hscheme'
    exact hverify

/-- A signature under an octet key is accepted if it verifies. -/
theorem accepts_edDSA_iff {x : Bytes} :
    edDSA.Accepts (.ed25519 x) message sig ↔ Ed25519.verify x message sig = true := by
  refine ⟨fun h => ?_, .edDSA⟩
  cases h with
  | edDSA hverify => exact hverify

/-- A signature under an RSA key is accepted if it verifies with the padding and the hash of the
algorithm. -/
theorem accepts_rsa_iff {padding : Rsa.Padding} {digest : Digest} {modulus exponent : Bytes}
    (hscheme : RsaScheme alg padding digest) :
    alg.Accepts (.rsa modulus exponent) message sig ↔
      Rsa.verify padding digest modulus exponent message sig = true := by
  refine ⟨fun h => ?_, .rsa hscheme⟩
  cases h with
  | rsa hscheme' hverify =>
    cases (rsaScheme?_eq_some.2 hscheme).symm.trans (rsaScheme?_eq_some.2 hscheme')
    exact hverify

end

/-! ## Outcomes -/

/-- What a verification may come to. A key that the algorithm does not go with is refused like a
signature that is not one of the message. -/
inductive Outcome (alg : Algorithm) (key : PublicKey) (message sig : Bytes) : Result Unit → Prop
  | accepted : alg.Accepts key message sig → Outcome alg key message sig (.ok ())
  | unsupported : alg = es512 →
    Outcome alg key message sig (.error (.unsupportedAlgorithm .es512))
  | tooLong {curve : Curve} {x y : Bytes} :
    key = .ec curve x y → alg.Suits key → ¬curve.Fits x y →
    Outcome alg key message sig
      (.error (.malformedInput (.coordinateLength curve.coordinateLength)))
  | refused {fault : SignatureFault} : alg ≠ es512 → ¬(alg.Suits key ∧ ¬key.Fits) →
    ¬alg.Accepts key message sig → Outcome alg key message sig (.error (.signatureInvalid fault))

section
variable {alg : Algorithm} {key : PublicKey} {message sig : Bytes}

/-- A key that the algorithm does not go with. -/
theorem Outcome.of_not_suits {fault : SignatureFault} (halg : alg ≠ es512) (h : ¬alg.Suits key) :
    Outcome alg key message sig (.error (.signatureInvalid fault)) :=
  .refused halg (fun hsuits => h hsuits.1) fun haccepts => h haccepts.suits

/-- With a key that the algorithm goes with and that has room for its coordinates, the check of the
signature itself decides. -/
theorem outcome_require {accepted : Bool} (hsuits : alg.Suits key) (hfits : key.Fits)
    (h : alg.Accepts key message sig ↔ accepted = true) :
    Outcome alg key message sig (alg.require accepted) := by
  cases accepted with
  | true => exact .accepted (h.2 rfl)
  | false => exact .refused hsuits.ne_es512 (fun hmisfit => hmisfit.2 hfits) (by simp [h])

/-- A verification on a curve looks at the curve of the key, then at its coordinates and last at the
signature. -/
theorem outcome_verifyOnCurve {expected : Curve} {c : PrimeCurve} {digest : Digest}
    (hscheme : EcdsaScheme alg expected c digest) (curve : Curve) (x y message sig : Bytes) :
    Outcome alg (.ec curve x y) message sig
      (alg.verifyOnCurve expected c digest curve x y message sig) := by
  have hsuits : alg.Suits (.ec expected x y) := .ecdsa hscheme
  unfold verifyOnCurve
  split
  · rename_i hcurve
    subst hcurve
    by_cases hfits : curve.Fits x y
    · rw [PublicKey.encodePoint_of_fits hfits]
      exact outcome_require hsuits hfits (accepts_ecdsa_iff hscheme hfits)
    · rw [PublicKey.encodePoint_of_not_fits hfits]
      exact .tooLong rfl hsuits hfits
  · rename_i hcurve
    refine .of_not_suits hsuits.ne_es512 fun hother => ?_
    cases hother with
    | ecdsa hscheme' => exact hcurve (hscheme'.unique hscheme).1

end

/-- Every verification comes to one of the outcomes. -/
theorem outcome_verify (alg : Algorithm) (key : PublicKey) (message sig : Bytes) :
    Outcome alg key message sig (alg.verify key message sig) := by
  cases key with
  | ec curve x y =>
    cases alg with
    | es256 => exact outcome_verifyOnCurve .es256 curve x y message sig
    | es384 => exact outcome_verifyOnCurve .es384 curve x y message sig
    | es512 => exact .unsupported rfl
    | _ =>
      refine .of_not_suits nofun fun hsuits => ?_
      cases hsuits with
      | ecdsa hscheme => cases hscheme
  | ed25519 x =>
    cases alg with
    | edDSA => exact outcome_require .edDSA trivial accepts_edDSA_iff
    | es512 => exact .unsupported rfl
    | _ => exact .of_not_suits nofun nofun
  | rsa modulus exponent =>
    have hrsa {padding : Rsa.Padding} {digest : Digest} (hscheme : RsaScheme alg padding digest) :
        Outcome alg (.rsa modulus exponent) message sig
          (alg.require (Rsa.verify padding digest modulus exponent message sig)) :=
      outcome_require (.rsa hscheme) trivial (accepts_rsa_iff hscheme)
    cases alg with
    | es512 => exact .unsupported rfl
    | es256 | es384 | edDSA =>
      refine .of_not_suits nofun fun hsuits => ?_
      cases hsuits with
      | rsa hscheme => cases hscheme
    | rs256 | rs384 | rs512 | ps256 | ps384 | ps512 | rs1 => exact hrsa (by constructor)

/-! ## What tells the outcome -/

namespace Outcome

variable {alg : Algorithm} {key : PublicKey} {message sig : Bytes} {r : Result Unit}

/-- The verification succeeds exactly if the signature is accepted. -/
theorem eq_ok_iff (h : Outcome alg key message sig r) :
    r = .ok () ↔ alg.Accepts key message sig := by
  cases h with
  | accepted haccepts => exact iff_of_true rfl haccepts
  | unsupported halg => exact iff_of_false nofun fun haccepts => haccepts.suits.ne_es512 halg
  | tooLong hkey _ hlong =>
    subst hkey
    exact iff_of_false nofun fun haccepts => hlong haccepts.fits
  | refused _ _ hrefuses => exact iff_of_false nofun hrefuses

/-- The algorithm is not supported exactly if it is the one without a verification. -/
theorem eq_unsupported_iff (h : Outcome alg key message sig r) {fault : AlgorithmFault} :
    r = .error (.unsupportedAlgorithm fault) ↔ alg = es512 ∧ fault = .es512 := by
  cases h with
  | accepted haccepts =>
    exact iff_of_false nofun fun hes512 => haccepts.suits.ne_es512 hes512.1
  | unsupported halg => simp [halg, eq_comm]
  | tooLong _ hsuits _ => exact iff_of_false nofun fun hes512 => hsuits.ne_es512 hes512.1
  | refused halg _ _ => exact iff_of_false nofun fun hes512 => halg hes512.1

/-- The key is malformed exactly if it suits the algorithm and its coordinates do not fit the
curve. -/
theorem eq_malformed_iff (h : Outcome alg key message sig r) {fault : InputFault} :
    r = .error (.malformedInput fault) ↔
      ∃ curve x y, key = .ec curve x y ∧ alg.Suits key ∧ ¬curve.Fits x y ∧
        fault = .coordinateLength curve.coordinateLength := by
  cases h with
  | accepted haccepts =>
    refine iff_of_false nofun fun hlong => ?_
    obtain ⟨curve, x, y, rfl, -, hlong, -⟩ := hlong
    exact hlong haccepts.fits
  | unsupported halg =>
    refine iff_of_false nofun fun hlong => ?_
    obtain ⟨-, -, -, -, hsuits, -⟩ := hlong
    exact hsuits.ne_es512 halg
  | tooLong hkey hsuits hlong =>
    subst hkey
    refine ⟨fun h => ?_, fun h => ?_⟩
    · cases h
      exact ⟨_, _, _, rfl, hsuits, hlong, rfl⟩
    · obtain ⟨curve, x, y, hkey, -, -, rfl⟩ := h
      cases hkey
      rfl
  | refused _ hmisfit _ =>
    refine iff_of_false nofun fun hlong => ?_
    obtain ⟨curve, x, y, rfl, hsuits, hlong, -⟩ := hlong
    exact hmisfit ⟨hsuits, hlong⟩

/-- The signature is invalid in all other cases where it is not accepted. -/
theorem eq_invalid_iff (h : Outcome alg key message sig r) :
    (∃ fault, r = .error (.signatureInvalid fault)) ↔
      alg ≠ es512 ∧ ¬(alg.Suits key ∧ ¬key.Fits) ∧ ¬alg.Accepts key message sig := by
  cases h with
  | accepted haccepts => exact iff_of_false nofun fun hother => hother.2.2 haccepts
  | unsupported halg => exact iff_of_false nofun fun hother => hother.1 halg
  | tooLong hkey hsuits hlong =>
    subst hkey
    exact iff_of_false nofun fun hother => hother.2.1 ⟨hsuits, hlong⟩
  | refused halg hmisfit hrefuses => exact iff_of_true ⟨_, rfl⟩ ⟨halg, hmisfit, hrefuses⟩

end Outcome

/-- A signature is verified exactly if the algorithm goes with the key and the way that it stands
for accepts the signature. The algorithm without a verification is refused as such with every key, a
key on the algorithm's curve is malformed exactly if a coordinate is too long for the curve, and all
else is an invalid signature. Zero bytes before the coordinates change nothing. -/
theorem verify_cases_iff (alg : Algorithm) (key : PublicKey) (message sig : Bytes) :
    (alg.verify key message sig = .ok () ↔ alg.Accepts key message sig) ∧
    (∀ fault, alg.verify key message sig = .error (.unsupportedAlgorithm fault) ↔
      alg = es512 ∧ fault = .es512) ∧
    (∀ fault, alg.verify key message sig = .error (.malformedInput fault) ↔
      ∃ curve x y, key = .ec curve x y ∧ alg.Suits key ∧ ¬curve.Fits x y ∧
        fault = .coordinateLength curve.coordinateLength) ∧
    ((∃ fault, alg.verify key message sig = .error (.signatureInvalid fault)) ↔
      alg ≠ es512 ∧ ¬(alg.Suits key ∧ ¬key.Fits) ∧ ¬alg.Accepts key message sig) ∧
    ∀ curve x y first second,
      alg.verify (.ec curve (x.withZeros first) (y.withZeros second)) message sig =
        alg.verify (.ec curve x y) message sig := by
  have h := outcome_verify alg key message sig
  refine ⟨h.eq_ok_iff, fun _ => h.eq_unsupported_iff, fun _ => h.eq_malformed_iff,
    h.eq_invalid_iff, fun curve x y first second => ?_⟩
  have hx := x.toNat_withZeros first
  have hy := y.toNat_withZeros second
  exact PublicKey.verify_ec_congr hx hy alg message sig

end Algorithm

end Attestation
