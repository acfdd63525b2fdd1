import Attestation.Bytes

/-!
# Residues

Arithmetic modulo a number, on natural numbers. Powers go bit by bit through the exponent
(`pow_eq`), and an inverse modulo a prime is a power.
-/

namespace Attestation.Residue

/-- The difference modulo `m`. -/
def sub (m a b : Nat) : Nat :=
  (a + (m - b % m)) % m

/-- A power modulo `m`, for exponents of at most `bits` bits. -/
def powBits (m base : Nat) : (bits exponent : Nat) → Nat
  | 0, _ => 1 % m
  | bits + 1, exponent =>
    let half := powBits m base bits (exponent / 2)
    let square := half * half % m
    if exponent % 2 = 1 then square * base % m else square

/-- A power modulo `m`. -/
def pow (m base exponent : Nat) : Nat :=
  powBits m base (Nat.log2 exponent + 1) exponent

/-- The inverse modulo a prime. -/
def inverse (p a : Nat) : Nat :=
  pow p a (p - 2)

/-- The bits of an exponent are used up by repeated squaring. -/
theorem powBits_eq (m base bits exponent : Nat) (h : exponent < 2 ^ bits) :
    powBits m base bits exponent = base ^ exponent % m := by
  induction bits generalizing exponent with
  | zero => simp [powBits, Nat.lt_one_iff.1 (by simpa using h)]
  | succ bits ih =>
    have hhalf : exponent / 2 < 2 ^ bits := by rw [Nat.pow_succ] at h; omega
    have hsquare : base ^ (exponent / 2) % m * (base ^ (exponent / 2) % m) % m =
        base ^ (exponent / 2 * 2) % m := by
      rw [← Nat.mul_mod, ← Nat.pow_add, Nat.mul_two]
    simp only [powBits, ih _ hhalf, hsquare]
    split
    · rw [Nat.mod_mul_mod, ← Nat.pow_succ]
      congr 2; omega
    · congr 2; omega

/-- Going through the bits computes the power. -/
theorem pow_eq (m base exponent : Nat) : pow m base exponent = base ^ exponent % m :=
  powBits_eq m base _ exponent Nat.lt_log2_self

end Attestation.Residue
