import Attestation.Proofs.Certificate.Key
import Attestation.Proofs.Checked.PublicKey
import Attestation.Proofs.PublicKey.Equality
import Attestation.Signature

/-!
# Points are the numbers of their coordinates

Dropping the zero bytes before a coordinate and padding it to the length of the curve writes its
number in that length (`Bytes.padZeros_trimZeros`), if there is room for it
(`Bytes.length_trimZeros_le_iff`). So a point tells the numbers of its coordinates and nothing else
(`PublicKey.encodePoint_of_fits`): two keys on a curve have the same point exactly if the comparison
finds them to be the same key, and the key of a certificate has the point that the certificate has
(`PublicKey.point_writes_numbers`).
-/

namespace Attestation

namespace Bytes

/-- Without leading zero bytes, a byte string is no longer than a length exactly if its number can
be written in that length. -/
theorem length_trimZeros_le_iff {n : Nat} {b : Bytes} :
    (trimZeros b).length ≤ n ↔ toNat b < 256 ^ n := by
  refine ⟨fun h => ?_, fun h => ?_⟩
  · calc toNat b = toNat (trimZeros b) := (toNat_trimZeros b).symm
      _ < 256 ^ (trimZeros b).length := toNat_lt _
      _ ≤ 256 ^ n := Nat.pow_le_pow_right (by decide) h
  · have hsame : toNat b = toNat (ofNat n (toNat b)) := (toNat_ofNat h).symm
    calc (trimZeros b).length ≤ (trimZeros (ofNat n (toNat b))).length := length_trimZeros_le hsame
      _ ≤ (ofNat n (toNat b)).length := length_trimZeros_le_length _
      _ = n := length_ofNat n _

/-- Zero bytes before a number do not count. -/
@[simp] theorem toNat_padZeros (n : Nat) (b : Bytes) : toNat (b.padZeros n) = toNat b :=
  toNat_withZeros (n - b.length) b

/-- Padding undoes the trimming: what comes out is the number in the given length. -/
theorem padZeros_trimZeros {n : Nat} {b : Bytes} (h : toNat b < 256 ^ n) :
    (trimZeros b).padZeros n = ofNat n (toNat b) := by
  have hlength := length_padZeros (length_trimZeros_le_iff.2 h)
  refine toNat_inj (hlength.trans (length_ofNat n _).symm) ?_
  rw [toNat_padZeros, toNat_trimZeros, toNat_ofNat h]

/-- Numbers that fit are written in the same bytes only if they are the same. -/
theorem ofNat_inj {n m m' : Nat} (hm : m < 256 ^ n) (hm' : m' < 256 ^ n) :
    ofNat n m = ofNat n m' ↔ m = m' := by
  refine ⟨fun h => ?_, fun h => congrArg _ h⟩
  rw [← toNat_ofNat hm, h, toNat_ofNat hm']

end Bytes

/-- Both coordinates are numbers that the curve has room for. -/
def Curve.Fits (curve : Curve) (x y : Bytes) : Prop :=
  x.toNat < 256 ^ curve.coordinateLength ∧ y.toNat < 256 ^ curve.coordinateLength

/-- The byte `04` and two numbers in the length of the coordinates. -/
def Curve.pointBytes (curve : Curve) (x y : Nat) : Bytes :=
  0x04 :: (Bytes.ofNat curve.coordinateLength x ++ Bytes.ofNat curve.coordinateLength y)

namespace PublicKey

variable {curve : Curve} {x y x' y' : Bytes}

/-! ## Encoding -/

/-- Coordinates fit a curve if they are not longer than its coordinates, apart from leading
zeros. -/
theorem fits_iff : curve.Fits x y ↔ x.trimZeros.length ≤ curve.coordinateLength ∧
    y.trimZeros.length ≤ curve.coordinateLength := by
  rw [Curve.Fits, Bytes.length_trimZeros_le_iff, Bytes.length_trimZeros_le_iff]

/-- Coordinates that fit are written in the length of the curve. -/
theorem encodePoint_of_fits (h : curve.Fits x y) :
    encodePoint curve x y = .ok (curve.pointBytes x.toNat y.toNat) := by
  obtain ⟨hx, hy⟩ := fits_iff.1 h
  have hroom := not_or.2 ⟨Nat.not_lt_of_le hx, Nat.not_lt_of_le hy⟩
  rw [encodePoint, if_neg hroom, Bytes.padZeros_trimZeros h.1, Bytes.padZeros_trimZeros h.2,
    Curve.pointBytes]

/-- Coordinates that do not fit are refused with the length that they should have. -/
theorem encodePoint_of_not_fits (h : ¬curve.Fits x y) :
    encodePoint curve x y =
      .error (.malformedInput (.coordinateLength curve.coordinateLength)) := by
  rw [fits_iff] at h
  exact if_pos (by omega)

/-- A point is written exactly if its coordinates fit. -/
theorem encodePoint_eq_ok {b : Bytes} :
    encodePoint curve x y = .ok b ↔ curve.Fits x y ∧ b = curve.pointBytes x.toNat y.toNat := by
  by_cases h : curve.Fits x y
  · rw [encodePoint_of_fits h, Except.ok.injEq, and_iff_right h, eq_comm]
  · rw [encodePoint_of_not_fits h]
    exact iff_of_false nofun fun hfits => h hfits.1

/-- The point depends on the numbers of the coordinates alone, and so does the failure. -/
theorem encodePoint_congr (hx : x.toNat = x'.toNat) (hy : y.toNat = y'.toNat) :
    encodePoint curve x y = encodePoint curve x' y' := by
  have hfits : curve.Fits x y ↔ curve.Fits x' y' := by rw [Curve.Fits, hx, hy, Curve.Fits]
  by_cases h : curve.Fits x y
  · rw [encodePoint_of_fits h, encodePoint_of_fits (hfits.1 h), hx, hy]
  · rw [encodePoint_of_not_fits h, encodePoint_of_not_fits (mt hfits.2 h)]

/-- Points are written in the same bytes only if their coordinates are the same numbers. -/
theorem pointBytes_inj (h : curve.Fits x y) (h' : curve.Fits x' y') :
    curve.pointBytes x.toNat y.toNat = curve.pointBytes x'.toNat y'.toNat ↔
      x.toNat = x'.toNat ∧ y.toNat = y'.toNat := by
  rw [← Bytes.ofNat_inj h.1 h'.1, ← Bytes.ofNat_inj h.2 h'.2]
  refine ⟨fun heq => ?_, fun ⟨hx, hy⟩ => by rw [Curve.pointBytes, Curve.pointBytes, hx, hy]⟩
  exact List.append_inj (List.cons.inj heq).2 (by simp)

/-! ## Points of keys -/

/-- Signatures are verified with the numbers of the coordinates, whatever zero bytes stand before
them. -/
theorem verify_ec_congr (hx : x.toNat = x'.toNat) (hy : y.toNat = y'.toNat) (alg : Algorithm)
    (message sig : Bytes) :
    alg.verify (.ec curve x y) message sig = alg.verify (.ec curve x' y') message sig := by
  cases alg with
  | es256 | es384 =>
    simp only [Algorithm.verify, Algorithm.verifyOnCurve, encodePoint_congr hx hy]
  | es512 | edDSA | rs256 | rs384 | rs512 | ps256 | ps384 | ps512 | rs1 => rfl

/-- Keys on one curve are the same key if their coordinates are the same numbers. -/
theorem denotes_ec_iff {alg : Option Int} (hx : x ≠ []) (hy : y ≠ []) (hx' : x' ≠ [])
    (hy' : y' ≠ []) :
    (CredentialKey.ec2 alg curve x' y').denotes (.ec curve x y) = .ok true ↔
      x'.toNat = x.toNat ∧ y'.toNat = y.toNat := by
  rw [CredentialKey.denotes_eq_true_iff]
  refine ⟨fun h => ?_, fun ⟨hsameX, hsameY⟩ => ⟨?_, ⟨hx', hy'⟩, hx, hy⟩⟩
  · obtain ⟨-, hsameX, hsameY⟩ := KeyValue.ec.inj h.value_eq
    exact ⟨hsameX, hsameY⟩
  · rw [CredentialKey.value, value, hsameX, hsameY]

/-- The point of a certificate's key is what the certificate has. -/
theorem point_of_certificate {c : Certificate} (h : c.publicKey = .ok (.ec curve x y)) :
    point (.ec curve x y) = .ok c.keyBits := by
  obtain ⟨-, hbits, hx, hy⟩ := Certificate.publicKey_eq_ec_iff.1 h
  have hfits : curve.Fits x y := by
    refine ⟨?_, ?_⟩
    · rw [← hx]
      exact x.toNat_lt
    · rw [← hy]
      exact y.toNat_lt
  have hxbytes : Bytes.ofNat curve.coordinateLength x.toNat = x := by
    rw [← hx, Bytes.ofNat_toNat]
  have hybytes : Bytes.ofNat curve.coordinateLength y.toNat = y := by
    rw [← hy, Bytes.ofNat_toNat]
  refine encodePoint_eq_ok.2 ⟨hfits, ?_⟩
  rw [hbits, Curve.pointBytes, hxbytes, hybytes]

/-- A key on a curve has a point exactly if the curve has room for both numbers, and then it is
these numbers in the length of the curve. So the points of two keys on a curve are the same exactly
if the comparison finds the keys to be the same, which then verify the same signatures. The point of
a certificate's key is the one of the certificate. -/
theorem point_writes_numbers (curve : Curve) (x y : Bytes) :
    (∀ b, point (.ec curve x y) = .ok b ↔
      curve.Fits x y ∧ b = curve.pointBytes x.toNat y.toNat) ∧
    (¬curve.Fits x y → point (.ec curve x y) =
      .error (.malformedInput (.coordinateLength curve.coordinateLength))) ∧
    (∀ alg x' y' b b', x ≠ [] → y ≠ [] → x' ≠ [] → y' ≠ [] →
      point (.ofCredential (.ec2 alg curve x' y')) = .ok b' → point (.ec curve x y) = .ok b →
      (b' = b ↔ (CredentialKey.ec2 alg curve x' y').denotes (.ec curve x y) = .ok true)) ∧
    (∀ alg x' y', (CredentialKey.ec2 alg curve x' y').denotes (.ec curve x y) = .ok true →
      ∀ (algorithm : Algorithm) message sig,
        algorithm.verify (.ofCredential (.ec2 alg curve x' y')) message sig =
          algorithm.verify (.ec curve x y) message sig) ∧
    ∀ c : Certificate, c.publicKey = .ok (.ec curve x y) →
      point (.ec curve x y) = .ok c.keyBits := by
  refine ⟨fun b => encodePoint_eq_ok, encodePoint_of_not_fits, ?_, ?_,
    fun c => point_of_certificate⟩
  · intro alg x' y' b b' hx hy hx' hy' hb' hb
    obtain ⟨hfits', rfl⟩ := encodePoint_eq_ok.1 hb'
    obtain ⟨hfits, rfl⟩ := encodePoint_eq_ok.1 hb
    rw [pointBytes_inj hfits' hfits, denotes_ec_iff hx hy hx' hy']
  · intro alg x' y' hdenotes algorithm message sig
    have hvalue := (CredentialKey.denotes_eq_true_iff.1 hdenotes).value_eq
    obtain ⟨-, hx, hy⟩ := KeyValue.ec.inj hvalue
    exact verify_ec_congr hx hy algorithm message sig

namespace PointSample

/-- A certificate that is read no further than for its key, whose coordinates are 1 and 2. -/
def certificate : Certificate :=
  ⟨2, [], Certificate.ecId, none, Curve.p256.pointBytes 1 2, []⟩

end PointSample

open PointSample (certificate)

/-- The coordinates 1 and 515 in several ways, one that is too long, and the ones of a
certificate. -/
theorem point_writes_numbers_sample :
    point (.ec .p256 [1] [0, 2, 3]) = .ok (Curve.p256.pointBytes 1 515) ∧
      point (.ec .p256 (1 :: List.replicate 32 0) [1]) =
        .error (.malformedInput (.coordinateLength 32)) ∧
      (CredentialKey.ec2 none .p256 [0, 1] [2, 3]).denotes (.ec .p256 [1] [0, 2, 3]) = .ok true ∧
      (∀ message sig,
        Algorithm.es256.verify (.ofCredential (.ec2 none .p256 [0, 1] [2, 3])) message sig =
          Algorithm.es256.verify (.ec .p256 [1] [0, 2, 3]) message sig) ∧
      certificate.publicKey = .ok (.ec .p256 (Bytes.ofNat 32 1) (Bytes.ofNat 32 2)) ∧
      point (.ec .p256 (Bytes.ofNat 32 1) (Bytes.ofNat 32 2)) = .ok certificate.keyBits := by
  obtain ⟨hpoint, -, hsame, hverify, -⟩ := point_writes_numbers .p256 [1] [0, 2, 3]
  have hfits (x y : Bytes) (hx : x.length ≤ 32) (hy : y.length ≤ 32) : Curve.p256.Fits x y :=
    fits_iff.2 ⟨Nat.le_trans (Bytes.length_trimZeros_le_length x) hx,
      Nat.le_trans (Bytes.length_trimZeros_le_length y) hy⟩
  have hb : point (.ec .p256 [1] [0, 2, 3]) = .ok (Curve.p256.pointBytes 1 515) :=
    (hpoint _).2 ⟨hfits _ _ (by decide) (by decide), rfl⟩
  have hb' : point (.ofCredential (.ec2 none .p256 [0, 1] [2, 3])) =
      .ok (Curve.p256.pointBytes 1 515) :=
    ((point_writes_numbers .p256 [0, 1] [2, 3]).1 _).2 ⟨hfits _ _ (by decide) (by decide), rfl⟩
  have hdenotes := (hsame none [0, 1] [2, 3] _ _ nofun nofun nofun nofun hb' hb).1 rfl
  have hlong : ¬Curve.p256.Fits (1 :: List.replicate 32 0) [1] := fun h =>
    absurd (fits_iff.1 h).1 (by decide)
  have hkey : certificate.publicKey = .ok (.ec .p256 (Bytes.ofNat 32 1) (Bytes.ofNat 32 2)) :=
    Certificate.publicKey_eq_ec_iff.2 ⟨rfl, rfl, rfl, rfl⟩
  exact ⟨hb, (point_writes_numbers _ _ _).2.1 hlong, hdenotes,
    hverify none [0, 1] [2, 3] hdenotes .es256, hkey,
    (point_writes_numbers _ _ _).2.2.2.2 certificate hkey⟩

end PublicKey

end Attestation
