import Attestation.Der.Value
import Attestation.Proofs.Number

/-!
# Integers in two's complement

`integerBytes` writes an integer in two's complement in its shortest form. What it writes is
accepted as such a form (`isShortestInteger_integerBytes`), and read back if the integer has 64 bits
(`toInt64?_integerBytes`).
-/

namespace Attestation.Der

/-- How many bytes a number takes after its first one, of which the highest bit stays free. -/
def laterBytes (n : Nat) : Nat :=
  (n.log2 + 1) / 8

/-- An integer in two's complement, in its shortest form. -/
def integerBytes : Int → Bytes
  | .ofNat n => Bytes.ofNat (laterBytes n + 1) n
  | .negSucc n => Bytes.ofNat (laterBytes n + 1) (256 ^ (laterBytes n + 1) - (n + 1))

/-- The integer has 64 bits. -/
def IsInt64 (n : Int) : Prop :=
  -2 ^ 63 ≤ n ∧ n < 2 ^ 63

instance (n : Int) : Decidable (IsInt64 n) :=
  inferInstanceAs (Decidable (_ ∧ _))

/-! ## Bounds -/

/-- The bytes of a number leave its highest bit free for the sign. -/
theorem lt_laterBytes (n : Nat) : n < 128 * 256 ^ laterBytes n := by
  have hpow : 128 * 256 ^ laterBytes n = 2 ^ (7 + 8 * laterBytes n) := by
    rw [Nat.pow_add, Nat.pow_mul]
  rw [hpow]
  refine Nat.lt_of_lt_of_le Nat.lt_log2_self (Nat.pow_le_pow_right (by decide) ?_)
  unfold laterBytes
  omega

/-- The first byte is needed: without it the highest bit would not be free. -/
theorem laterBytes_le {n k : Nat} (h : laterBytes n = k + 1) : 128 * 256 ^ k ≤ n := by
  have hpow : 128 * 256 ^ k = 2 ^ (7 + 8 * k) := by
    rw [Nat.pow_add, Nat.pow_mul]
  have hlog : 7 + 8 * k ≤ n.log2 := by
    unfold laterBytes at h
    omega
  have hne : n ≠ 0 := by
    rintro rfl
    simp [laterBytes] at h
  rw [hpow]
  exact (Nat.le_log2 hne).1 hlog

/-- A number of 63 bits takes eight bytes at most. -/
theorem laterBytes_le_seven {n : Nat} (h : n < 2 ^ 63) : laterBytes n ≤ 7 := by
  have hlog : n.log2 < 63 := by
    by_cases hn : n = 0
    · subst hn
      decide
    · exact (Nat.log2_lt hn).2 h
  unfold laterBytes
  omega

/-- The two's complement of a number has its highest bit set and still fits its bytes. -/
theorem negSucc_bounds (n : Nat) :
    128 * 256 ^ laterBytes n ≤ 256 ^ (laterBytes n + 1) - (n + 1) ∧
      256 ^ (laterBytes n + 1) - (n + 1) < 256 ^ (laterBytes n + 1) := by
  have hlt := lt_laterBytes n
  have hpos : 0 < 256 ^ laterBytes n := Nat.pow_pos (by decide)
  rw [Nat.pow_succ]
  omega

/-- A number fits its bytes. -/
theorem ofNat_lt (n : Nat) : n < 256 ^ (laterBytes n + 1) := by
  have hlt := lt_laterBytes n
  rw [Nat.pow_succ]
  omega

/-! ## Bytes -/

/-- The first byte of a number is its highest digit. -/
theorem toNat_first {k n : Nat} (h : n < 256 ^ (k + 1)) :
    (UInt8.ofNat (n / 256 ^ k)).toNat = n / 256 ^ k := by
  refine UInt8.toNat_ofNat_of_lt' ?_
  rw [Nat.div_lt_iff_lt_mul (Nat.pow_pos (by decide)), ← Nat.pow_succ']
  exact h

/-- The first byte tells whether the highest bit is set. -/
theorem le_first_iff {k n : Nat} (h : n < 256 ^ (k + 1)) :
    0x80 ≤ UInt8.ofNat (n / 256 ^ k) ↔ 128 * 256 ^ k ≤ n := by
  rw [UInt8.le_iff_toNat_le, toNat_first h]
  exact Nat.le_div_iff_mul_le (Nat.pow_pos (by decide))

/-- The first byte is zero exactly if the number has no digit for it. -/
theorem first_eq_zero_iff {k n : Nat} (h : n < 256 ^ (k + 1)) :
    UInt8.ofNat (n / 256 ^ k) = 0 ↔ n < 256 ^ k := by
  rw [← UInt8.toNat_inj, toNat_first h]
  exact Nat.div_eq_zero_iff_lt (Nat.pow_pos (by decide))

/-- Bytes are negative exactly if the highest bit of the number is set. -/
theorem isNegative_ofNat {k n : Nat} (h : n < 256 ^ (k + 1)) :
    Value.isNegative (Bytes.ofNat (k + 1) n) = decide (128 * 256 ^ k ≤ n) := by
  simp only [Value.isNegative, Bytes.ofNat, List.head?_cons, Option.any_some, le_first_iff h]

/-- The bytes of an integer tell its sign. -/
theorem isNegative_integerBytes (n : Int) : Value.isNegative (integerBytes n) = decide (n < 0) := by
  cases n with
  | ofNat n =>
    rw [integerBytes, isNegative_ofNat (ofNat_lt n)]
    exact decide_eq_decide.2 (iff_of_false (Nat.not_le.2 (lt_laterBytes n)) (by simp))
  | negSucc n =>
    obtain ⟨hle, hlt⟩ := negSucc_bounds n
    rw [integerBytes, isNegative_ofNat hlt]
    exact decide_eq_decide.2 (iff_of_true hle (Int.negSucc_lt_zero n))

/-- The bytes of an integer that is not negative are the number. -/
theorem toNat_integerBytes_ofNat (n : Nat) : (integerBytes (.ofNat n)).toNat = n :=
  Bytes.toNat_ofNat (ofNat_lt n)

/-- A negative integer has no zero before it. -/
theorem isShortestInteger_of_isNegative {b : Bytes} (h : Value.isNegative b = true) :
    isShortestInteger b = true := by
  unfold isShortestInteger
  split
  · cases h
  · cases h
  · rfl

/-- No byte of an integer could be left out. -/
theorem isShortestInteger_integerBytes (n : Int) : isShortestInteger (integerBytes n) = true := by
  cases n with
  | ofNat n =>
    rw [integerBytes]
    cases hk : laterBytes n with
    | zero =>
      simp only [Bytes.ofNat]
      unfold isShortestInteger
      split <;> simp_all
    | succ k =>
      have hle := laterBytes_le hk
      simp only [Bytes.ofNat]
      unfold isShortestInteger
      split
      · rename_i heq
        cases heq
      · rename_i d _ heq
        obtain ⟨hfirst, hrest⟩ := List.cons.inj heq
        obtain ⟨rfl, -⟩ := List.cons.inj hrest
        have hn : n < 256 ^ (k + 1) := (first_eq_zero_iff (hk ▸ ofNat_lt n)).1 hfirst
        exact decide_eq_true ((le_first_iff hn).2 hle)
      · rfl
  | negSucc n =>
    refine isShortestInteger_of_isNegative ?_
    rw [isNegative_integerBytes]
    exact decide_eq_true (Int.negSucc_lt_zero n)

/-- An integer of 64 bits is read from its bytes. -/
theorem toInt64?_integerBytes {n : Int} (h : IsInt64 n) :
    (Value.integer (integerBytes n)).toInt64? = some n := by
  obtain ⟨hlow, hhigh⟩ := h
  rw [Value.toInt64?, isNegative_integerBytes]
  cases n with
  | ofNat n =>
    have hn : n < 2 ^ 63 := by
      have : (n : Int) < 2 ^ 63 := hhigh
      omega
    have hbmod : Int.bmod n (2 ^ 64) = n := Int.bmod_eq_of_le (by omega) (by omega)
    rw [toNat_integerBytes_ofNat, if_neg (by simp), if_pos (by omega), hbmod]
    rfl
  | negSucc n =>
    have hn : n < 2 ^ 63 := by omega
    have hlength : (integerBytes (.negSucc n)).length = laterBytes n + 1 := Bytes.length_ofNat _ _
    obtain ⟨-, hlt⟩ := negSucc_bounds n
    have hle := ofNat_lt n
    have hvalue : (integerBytes (.negSucc n)).toNat = 256 ^ (laterBytes n + 1) - (n + 1) :=
      Bytes.toNat_ofNat hlt
    have hwidth := laterBytes_le_seven hn
    have hcast : ((256 ^ (laterBytes n + 1) : Nat) : Int) = 256 ^ (laterBytes n + 1) :=
      Int.natCast_pow 256 _
    rw [hlength, hvalue, if_pos (by simp), if_pos (by omega), Int.ofNat_sub hle, hcast,
      Int.negSucc_eq]
    congr 1
    omega

end Attestation.Der
