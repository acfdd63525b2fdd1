import Attestation.Reader

/-!
# Byte strings as numbers

Writing and reading a number in a given number of bytes undo each other (`toNat_ofNat`,
`ofNat_toNat`), so byte strings of one length are numbers below a power of 256. Across lengths two
byte strings are the same number exactly if they agree without their leading zero bytes
(`trimZeros_eq_iff`).
-/

namespace Attestation

namespace Bytes

/-- Reading what was written gives the number, modulo the first power out of range. -/
theorem toNat_ofNat_mod (len n : Nat) : toNat (ofNat len n) = n % 256 ^ len := by
  induction len with
  | zero => simp [ofNat, Nat.mod_one]
  | succ len ih =>
    rw [ofNat, toNat_cons, length_ofNat, ih, Nat.mod_pow_succ, Nat.add_comm, Nat.mul_comm]
    simp

/-- A number that fits is read from the bytes that it is written with. -/
theorem toNat_ofNat {len n : Nat} (h : n < 256 ^ len) : toNat (ofNat len n) = n := by
  rw [toNat_ofNat_mod, Nat.mod_eq_of_lt h]

/-- Byte strings of one length are told apart by their numbers. -/
theorem toNat_inj {a b : Bytes} (hl : a.length = b.length) (h : toNat a = toNat b) : a = b := by
  induction a generalizing b with
  | nil => exact (List.length_eq_zero_iff.1 hl.symm).symm
  | cons d a ih =>
    cases b with
    | nil => cases hl
    | cons e b =>
      have hl : a.length = b.length := by simpa using hl
      rw [toNat_cons, toNat_cons, hl] at h
      have ha := toNat_lt a
      have hb := toNat_lt b
      rw [hl] at ha
      have hd : d.toNat = e.toNat := by
        have := congrArg (· / 256 ^ b.length) h
        simpa [Nat.mul_comm _ (256 ^ b.length), Nat.mul_add_div (Nat.zero_lt_of_lt ha),
          Nat.div_eq_of_lt ha, Nat.div_eq_of_lt hb] using this
      rw [hd] at h
      rw [UInt8.toNat.inj hd, ih hl (Nat.add_left_cancel h)]

/-- Bytes are written again as they were. -/
theorem ofNat_toNat (b : Bytes) : ofNat b.length (toNat b) = b :=
  toNat_inj (by simp) (toNat_ofNat (toNat_lt b))

/-- As many bytes as the width of a word are those of a word. -/
theorem exists_word {W : Type} {n : Nat} {ofWord : W → Nat} {toWord : Nat → W}
    (h : ∀ m < 256 ^ n, ofWord (toWord m) = m) {b : Bytes} (hb : n ≤ b.length) :
    ∃ w rest, b = ofNat n (ofWord w) ++ rest ∧ b.length = n + rest.length := by
  obtain ⟨front, rest, rfl, rfl⟩ := exists_append_of_le hb
  refine ⟨toWord (toNat front), rest, ?_, List.length_append⟩
  rw [h _ (toNat_lt front), ofNat_toNat]

/-! ## Leading zero bytes -/

/-- A number without leading zeros does not start with zero. -/
theorem head?_trimZeros_ne (b : Bytes) : (trimZeros b).head? ≠ some 0 := by
  intro h
  have := List.head?_dropWhile_not (· == (0 : UInt8)) b
  rw [show b.dropWhile (· == 0) = trimZeros b from rfl, h] at this
  simp at this

/-- A number does not get longer without its leading zeros. -/
theorem length_trimZeros_le_length (b : Bytes) : (trimZeros b).length ≤ b.length :=
  (List.dropWhile_suffix _).length_le

/-- Without leading zero bytes the number tells the length: it is at least the power of the base
that its first byte stands for. -/
theorem le_toNat_of_trimZeros {b t : Bytes} {d : UInt8} (h : trimZeros b = d :: t) :
    256 ^ t.length ≤ toNat b := by
  have hd : d ≠ 0 := by
    rintro rfl
    exact head?_trimZeros_ne b (by rw [h, List.head?_cons])
  have hpos : 0 < d.toNat := by
    refine Nat.pos_of_ne_zero fun h0 => hd ?_
    exact UInt8.toNat.inj h0
  rw [← toNat_trimZeros, h, toNat_cons]
  exact Nat.le_add_right_of_le (Nat.le_mul_of_pos_left _ hpos)

/-- Without leading zeros, a number has no more bytes in one way of writing it than in another. -/
theorem length_trimZeros_le {a b : Bytes} (h : toNat a = toNat b) :
    (trimZeros a).length ≤ (trimZeros b).length := by
  cases ha : trimZeros a with
  | nil => simp
  | cons d t =>
    have hlt := toNat_lt (trimZeros b)
    rw [toNat_trimZeros, ← h] at hlt
    have hle := le_toNat_of_trimZeros ha
    exact (Nat.pow_lt_pow_iff_right (by decide)).1 (Nat.lt_of_le_of_lt hle hlt)

/-- Two byte strings are the same number exactly if they agree without leading zero bytes. -/
theorem trimZeros_eq_iff {a b : Bytes} : trimZeros a = trimZeros b ↔ toNat a = toNat b := by
  refine ⟨fun h => ?_, fun h => ?_⟩
  · rw [← toNat_trimZeros a, h, toNat_trimZeros]
  · refine toNat_inj ?_ (by simpa using h)
    exact Nat.le_antisymm (length_trimZeros_le h) (length_trimZeros_le h.symm)

/-- A number has no bytes but leading zeros exactly if it is zero. -/
theorem trimZeros_eq_nil_iff {b : Bytes} : trimZeros b = [] ↔ toNat b = 0 :=
  trimZeros_eq_iff (b := [])

end Bytes

/-- A number is read from its bytes in the given width, whatever follows. -/
theorem Reader.number_eq_some_iff {n m : Nat} {b rest : Bytes} :
    Reader.number n b = some (m, rest) ↔ b = Bytes.ofNat n m ++ rest ∧ m < 256 ^ n := by
  refine ⟨fun h => ?_, fun h => ?_⟩
  · obtain ⟨⟨front, rest'⟩, hs, hx⟩ := Option.map_eq_some_iff.1 h
    cases hx
    obtain ⟨rfl, rfl⟩ := Bytes.splitAt?_eq_some hs
    exact ⟨by rw [Bytes.ofNat_toNat], front.toNat_lt⟩
  · rcases h with ⟨rfl, hlt⟩
    have hs := Bytes.splitAt?_append (Bytes.ofNat n m) rest
    rw [Bytes.length_ofNat] at hs
    simp [number, hs, Bytes.toNat_ofNat hlt]

end Attestation
