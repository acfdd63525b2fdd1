import Attestation.Proofs.Verification.Tpm

/-!
# Public areas of credential keys

A public area is compared with a credential key by the integers that both write.
`Tpm.PublicArea.Matches` says that they are the same, by the type of the object, the identifier of
its curve and its exponent as a word, without a key in between, and a credential key with all its
numbers passes exactly then (`TpmStatement.checkKey_iff_matches`). An area that describes no key
that a credential key can be (`Tpm.PublicArea.Expressible`) is one of another key. The word of the
exponent stands at one place of an area's bytes, and where it is zero, 65537 may stand there as
well.
-/

namespace Attestation

/-- The byte string is the shortest one that writes the number, and it is not empty. -/
structure Bytes.Shortest (b : Bytes) (n : Nat) : Prop where
  ne_nil : b ≠ []
  toNat_eq : b.toNat = n
  length_le : ∀ c : Bytes, c.toNat = n → b.length ≤ c.length

/-- The identifier of the curve in the registry of TPMs. -/
def Curve.tpmId : Curve → UInt16
  | p256 => 3
  | p384 => 4
  | p521 => 5

namespace Tpm

/-- A curve is told by its identifier. -/
theorem curveOfId?_eq_some {id : UInt16} {curve : Curve} :
    curveOfId? id = some curve ↔ id = curve.tpmId := by
  refine ⟨fun h => ?_, fun h => ?_⟩
  · unfold curveOfId? at h
    split at h
    · cases h; rfl
    · cases h; rfl
    · cases h; rfl
    · cases h
  · subst h
    cases curve <;> rfl

namespace PublicArea

/-- The object has a key that a credential key can be: it is an RSA key, or a key on one of three
curves. -/
inductive Expressible (area : PublicArea) : Prop
  | rsa : area.type = rsaId → Expressible area
  | ecc {symmetric scheme kdf : UInt16} {x y : Bytes} (curve : Curve) :
    area.type = eccId → area.body = .ecc symmetric scheme curve.tpmId kdf x y → Expressible area

/-- The integers in the area are those of the credential key, and none is written by no byte at all.
An exponent of zero is 65537 on either side. -/
inductive Matches (area : PublicArea) : CredentialKey → Prop
  | rsa {symmetric scheme keyBits : UInt16} {exponent : UInt32} {modulus n e : Bytes}
      {alg : Option Int} :
    area.type = rsaId → area.body = .rsa symmetric scheme keyBits exponent modulus →
    modulus ≠ [] → n.toNat = modulus.toNat →
    (if e.toNat = 0 then 65537 else e.toNat) =
      (if exponent.toNat = 0 then 65537 else exponent.toNat) →
    Matches area (.rsa alg n e)
  | ecc {symmetric scheme kdf : UInt16} {x y x' y' : Bytes} {alg : Option Int} {curve : Curve} :
    area.type = eccId → area.body = .ecc symmetric scheme curve.tpmId kdf x y →
    x ≠ [] → y ≠ [] → x'.toNat = x.toNat → y'.toNat = y.toNat →
    Matches area (.ec2 alg curve x' y')

/-- The area with another exponent. An object that is no RSA key has none. -/
def withExponent (area : PublicArea) (exponent : UInt32) : PublicArea :=
  match area.body with
  | .rsa symmetric scheme keyBits _ modulus =>
    { area with body := .rsa symmetric scheme keyBits exponent modulus }
  | .ecc _ _ _ _ _ _ => area
  | .other _ => area

variable {b : Bytes} {area : PublicArea}

/-! ## Types of objects -/

/-- The type of an object that was decoded tells what is in it. -/
theorem Encoding.type_eq (h : Encoding b area) :
    (∀ symmetric scheme keyBits exponent modulus,
      area.body = .rsa symmetric scheme keyBits exponent modulus → area.type = rsaId) ∧
    (∀ symmetric scheme curve kdf x y,
      area.body = .ecc symmetric scheme curve kdf x y → area.type = eccId) ∧
    ∀ rest, area.body = .other rest → area.type ≠ rsaId ∧ area.type ≠ eccId := by
  rcases h with ⟨-, hbody⟩
  cases hbody with
  | rsa h =>
    cases h with
    | intro _ _ _ => exact ⟨fun _ _ _ _ _ _ => rfl, nofun, nofun⟩
  | ecc h =>
    cases h with
    | intro _ _ _ _ _ => exact ⟨nofun, fun _ _ _ _ _ _ _ => rfl, nofun⟩
  | other hrsa hecc => exact ⟨nofun, nofun, fun _ _ => ⟨hrsa, hecc⟩⟩

/-- An area that was parsed matches a key exactly if its part for the type of key describes the
key. -/
theorem Encoding.matches_iff {key : CredentialKey} (h : Encoding b area) (hkey : key.Complete) :
    area.Matches key ↔ area.body.Describes key := by
  obtain ⟨hrsa, hecc, -⟩ := h.type_eq
  refine ⟨fun hmatches => ?_, fun hdescribes => ?_⟩
  · cases hmatches with
    | rsa _ hbody hmodulus hn he =>
      rw [hbody]
      exact .rsa hmodulus hkey.1 hkey.2 hn he
    | ecc _ hbody hx hy hx' hy' =>
      rw [hbody]
      exact .ecc (curveOfId?_eq_some.2 rfl) hx hy hkey.1 hkey.2 hx' hy'
  · generalize hbody : area.body = body at hdescribes
    cases hdescribes with
    | rsa hmodulus _ _ hn he => exact .rsa (hrsa _ _ _ _ _ hbody) hbody hmodulus hn he
    | ecc hid hx hy _ _ hx' hy' =>
      obtain rfl := curveOfId?_eq_some.1 hid
      exact .ecc (hecc _ _ _ _ _ _ hbody) hbody hx hy hx' hy'

/-- Other objects have no key here. -/
theorem Encoding.key?_eq_none (h : Encoding b area) (hother : ¬area.Expressible) :
    area.key? = none := by
  obtain ⟨hrsa, hecc, -⟩ := h.type_eq
  unfold key?
  split
  · rename_i hbody
    exact absurd (.rsa (hrsa _ _ _ _ _ hbody)) hother
  · rename_i id _ _ _ hbody
    refine Option.map_eq_none_iff.2 (Option.eq_none_iff_forall_ne_some.2 fun curve hcurve => ?_)
    obtain rfl := curveOfId?_eq_some.1 hcurve
    exact hother (.ecc curve (hecc _ _ _ _ _ _ hbody) hbody)
  · rfl

/-! ## Exponents -/

/-- Of the bytes of an exponent none could be left out. -/
theorem shortest_exponentBytes (exponent : UInt32) :
    (exponentBytes exponent).Shortest (KeyValue.exponent exponent.toNat) := by
  refine ⟨exponentBytes_ne_nil exponent, toNat_exponentBytes exponent, fun c hc => ?_⟩
  have hword := toNat_exponentBytes exponent
  rw [exponentBytes, Bytes.toNat_trimZeros] at hword
  exact Nat.le_trans (Bytes.length_trimZeros_le (hword.trans hc.symm))
    (Bytes.length_trimZeros_le_length c)

/-- The exponent in the part of an RSA key stands at one place, where any other one may stand. -/
theorem RsaEncoding.withExponent {symmetric scheme keyBits : UInt16} {exponent : UInt32}
    {modulus : Bytes} (h : RsaEncoding b (.rsa symmetric scheme keyBits exponent modulus)) :
    ∃ front back, b = front ++ Bytes.ofNat 4 exponent.toNat ++ back ∧ ∀ e : UInt32,
      RsaEncoding (front ++ Bytes.ofNat 4 e.toNat ++ back)
        (.rsa symmetric scheme keyBits e modulus) := by
  cases h with
  | intro hsymmetric hscheme hmodulus =>
    exact ⟨_, sizedBytes modulus, rfl, fun e => .intro hsymmetric hscheme hmodulus⟩

/-- The exponent of an RSA key stands at one place, where any other one may stand. -/
theorem Encoding.withExponent {symmetric scheme keyBits : UInt16} {exponent : UInt32}
    {modulus : Bytes} (h : Encoding b area)
    (hrsa : area.body = .rsa symmetric scheme keyBits exponent modulus) :
    ∃ front back, b = front ++ Bytes.ofNat 4 exponent.toNat ++ back ∧
      ∀ e : UInt32, Encoding (front ++ Bytes.ofNat 4 e.toNat ++ back) (area.withExponent e) := by
  rcases h with @⟨type, nameAlg, attributes, authPolicy, _, _, hlength, hbody⟩
  dsimp only at hrsa
  subst hrsa
  cases hbody with
  | rsa hbody =>
    obtain ⟨front, back, rfl, hfront⟩ := hbody.withExponent
    refine ⟨Bytes.ofNat 2 rsaId.toNat ++ Bytes.ofNat 2 nameAlg.toNat ++
      Bytes.ofNat 4 attributes.toNat ++ sizedBytes authPolicy ++ front, back,
      by simp only [List.append_assoc], fun e => ?_⟩
    have hencoding : Encoding _ (withExponent ⟨rsaId, nameAlg, attributes, authPolicy,
        .rsa symmetric scheme keyBits exponent modulus⟩ e) :=
      .intro hlength (.rsa (hfront e))
    simpa only [List.append_assoc] using hencoding
  | ecc hbody => cases hbody

/-- An exponent of zero describes the same key as the one that it stands for. -/
theorem key?_withExponent_zero (area : PublicArea) :
    (area.withExponent 0).key? = (area.withExponent 65537).key? := by
  have hbytes : exponentBytes 0 = exponentBytes 65537 := rfl
  unfold withExponent key?
  cases area.body with
  | rsa _ _ _ _ _ => simp only [hbytes]
  | ecc _ _ _ _ _ _ | other _ => rfl

end PublicArea

end Tpm

namespace TpmStatement

open Tpm (PublicArea)

variable {key : CredentialKey} {area : PublicArea}

/-! ## The comparison -/

/-- The area is compared by the key that it describes. -/
theorem checkKey_congr {area' : PublicArea} (h : area.key? = area'.key?) :
    checkKey key area = checkKey key area' := by
  unfold checkKey
  rw [h]

/-- An area without a key that can be compared is refused for the key. -/
theorem checkKey_of_key?_eq_none (h : area.key? = none) :
    checkKey key area = .error (.keyMismatch .pubArea) := by
  unfold checkKey
  rw [h]
  rfl

/-- Where no number is missing, only another key is refused. -/
theorem checkKey_of_complete {p : PublicKey} (hkey : key.Complete) (hp : area.key? = some p)
    (hcomplete : p.Complete) :
    checkKey key area = ensure (decide (key.value = p.value)) (.keyMismatch .pubArea) := by
  unfold checkKey
  rw [hp]
  dsimp only
  rw [CredentialKey.denotes_of_complete hkey hcomplete]
  rfl

/-- An area with another key is refused for the key. -/
theorem checkKey_eq_mismatch {p : PublicKey} (hkey : key.Complete) (hp : area.key? = some p)
    (hcomplete : p.Complete) (hother : ¬area.body.Describes key) :
    checkKey key area = .error (.keyMismatch .pubArea) := by
  rw [← checkKey_eq_ok (u := ()), checkKey_of_complete hkey hp hcomplete, ensure_eq_ok] at hother
  rw [checkKey_of_complete hkey hp hcomplete, Bool.eq_false_iff.2 hother]
  rfl

/-- A credential key with all its numbers passes for the key of an area that was decoded exactly if
the area has the integers of the key. It is refused as another key if the area has other integers,
all of them, and if it has no key that a credential key can be. The bytes of an exponent are the
shortest ones of what it stands for, and its word in the area may be zero as well as 65537. -/
theorem checkKey_iff_matches {b : Bytes} (harea : PublicArea.parse b = .ok area) :
    (∀ key : CredentialKey, key.Complete →
      (checkKey key area = .ok () ↔ area.Matches key) ∧
      (¬area.Expressible → checkKey key area = .error (.keyMismatch .pubArea)) ∧
      ∀ p, area.key? = some p → p.Complete → ¬area.Matches key →
        checkKey key area = .error (.keyMismatch .pubArea)) ∧
    ∀ symmetric scheme keyBits exponent modulus,
      area.body = .rsa symmetric scheme keyBits exponent modulus →
      (∃ bytes, area.key? = some (.rsa modulus bytes) ∧
        bytes.Shortest (KeyValue.exponent exponent.toNat)) ∧
      ∃ front back, b = front ++ Bytes.ofNat 4 exponent.toNat ++ back ∧
        (∀ e : UInt32, PublicArea.parse (front ++ Bytes.ofNat 4 e.toNat ++ back) =
          .ok (area.withExponent e)) ∧
        ∀ key, checkKey key (area.withExponent 0) = checkKey key (area.withExponent 65537) := by
  have hencoding := PublicArea.parse_eq_ok_iff.1 harea
  refine ⟨fun key hkey => ⟨?_, fun hother => ?_, fun p hp hcomplete hother => ?_⟩,
    fun symmetric scheme keyBits exponent modulus hrsa => ⟨?_, ?_⟩⟩
  · rw [hencoding.matches_iff hkey, checkKey_eq_ok]
  · exact checkKey_of_key?_eq_none (hencoding.key?_eq_none hother)
  · rw [hencoding.matches_iff hkey] at hother
    exact checkKey_eq_mismatch hkey hp hcomplete hother
  · refine ⟨PublicArea.exponentBytes exponent, ?_, PublicArea.shortest_exponentBytes exponent⟩
    rw [PublicArea.key?, hrsa]
  · obtain ⟨front, back, hb, hothers⟩ := hencoding.withExponent hrsa
    refine ⟨front, back, hb, fun e => PublicArea.parse_eq_ok_iff.2 (hothers e), fun key => ?_⟩
    exact checkKey_congr area.key?_withExponent_zero

namespace PublicAreaSample

/-- The bytes of an RSA key of one byte, with the default exponent. -/
def rsaBytes : Bytes :=
  [0, 1, 0, 0x0b, 0, 0, 0, 0, 0, 0, 0, 0x10, 0, 0x10, 8, 0, 0, 0, 0, 0, 0, 1, 5]

def rsaArea : PublicArea :=
  ⟨1, 0x0b, 0, [], .rsa 0x10 0x10 0x800 0 [5]⟩

/-- The bytes of a key on the curve with the given identifier, whose coordinates are 1 and 2. -/
def eccBytes (curve : UInt8) : Bytes :=
  [0, 0x23, 0, 0x0b, 0, 0, 0, 0, 0, 0, 0, 0x10, 0, 0x10, 0, curve, 0, 0x10, 0, 1, 1, 0, 2, 0, 2]

def eccArea (curve : UInt16) : PublicArea :=
  ⟨0x23, 0x0b, 0, [], .ecc 0x10 0x10 curve 0x10 [1] [0, 2]⟩

end PublicAreaSample

open PublicAreaSample (rsaBytes rsaArea eccBytes eccArea)

/-- An RSA key with the default exponent, which another modulus does not match; a key on P-256, and
one on a curve that is not known. -/
theorem checkKey_iff_matches_samples :
    (PublicArea.parse rsaBytes = .ok rsaArea ∧
      checkKey (.rsa none [0, 5] [1, 0, 1]) rsaArea = .ok () ∧
      checkKey (.rsa none [6] [1, 0, 1]) rsaArea = .error (.keyMismatch .pubArea) ∧
      checkKey (.rsa none [0, 5] [1, 0, 1]) (rsaArea.withExponent 0) =
        checkKey (.rsa none [0, 5] [1, 0, 1]) (rsaArea.withExponent 65537)) ∧
    (PublicArea.parse (eccBytes 3) = .ok (eccArea 3) ∧
      checkKey (.ec2 none .p256 [1] [2]) (eccArea 3) = .ok ()) ∧
    PublicArea.parse (eccBytes 1) = .ok (eccArea 1) ∧ ¬(eccArea 1).Expressible ∧
      checkKey (.ec2 none .p256 [1] [2]) (eccArea 1) = .error (.keyMismatch .pubArea) := by
  have hrsa : PublicArea.parse rsaBytes = .ok rsaArea := rfl
  have hcurve : PublicArea.parse (eccBytes 3) = .ok (eccArea 3) := rfl
  have hother : PublicArea.parse (eccBytes 1) = .ok (eccArea 1) := rfl
  have hsame : rsaArea.Matches (.rsa none [0, 5] [1, 0, 1]) :=
    .rsa rfl rfl nofun (by decide) (by decide)
  have hdiffers : ¬rsaArea.Matches (.rsa none [6] [1, 0, 1]) := fun h => by
    cases h with
    | rsa _ hbody _ hn _ =>
      cases hbody
      cases hn
  have hpoint : (eccArea 3).Matches (.ec2 none .p256 [1] [2]) :=
    .ecc rfl rfl nofun nofun (by decide) (by decide)
  have hunknown : ¬(eccArea 1).Expressible := fun h => by
    cases h with
    | rsa htype => cases htype
    | ecc curve _ hbody =>
      cases curve <;> cases hbody
  obtain ⟨hkeys, hexponents⟩ := checkKey_iff_matches hrsa
  obtain ⟨-, -, -, -, -, hzero⟩ := hexponents _ _ _ _ _ rfl
  have hkey : (CredentialKey.rsa none [0, 5] [1, 0, 1]).Complete := ⟨nofun, nofun⟩
  have hkey' : (CredentialKey.rsa none [6] [1, 0, 1]).Complete := ⟨nofun, nofun⟩
  have hkeyEc : (CredentialKey.ec2 none .p256 [1] [2]).Complete := ⟨nofun, nofun⟩
  refine ⟨⟨hrsa, (hkeys _ hkey).1.2 hsame, ?_, hzero _⟩, ⟨hcurve, ?_⟩, hother, hunknown, ?_⟩
  · exact (hkeys _ hkey').2.2 _ rfl ⟨nofun, PublicArea.exponentBytes_ne_nil 0⟩ hdiffers
  · exact ((checkKey_iff_matches hcurve).1 _ hkeyEc).1.2 hpoint
  · exact ((checkKey_iff_matches hother).1 _ hkeyEc).2.1 hunknown

end TpmStatement

end Attestation
