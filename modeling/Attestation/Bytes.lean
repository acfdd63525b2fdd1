/-!
# Byte strings

Byte strings are lists of bytes, so that what a reader takes and what it leaves are related to its
input by `++`. `toNat` reads a byte string as a number in base 256, most significant byte first, and
`ofNat` writes a number in a given number of bytes; `trimZeros` drops the leading zero bytes, which
do not change the number.

Powers are those of the core library in every module, whichever other instances a module has in
scope, so that a power means the same number in the same form wherever it is written.
-/

namespace Attestation

attribute [scoped instance (high)] instPowNat
attribute [default_instance 20000] instPowNat

/-- A byte string. -/
abbrev Bytes := List UInt8

namespace Bytes

/-- The number that a byte string writes in base 256, most significant byte first. -/
def toNat (b : Bytes) : Nat :=
  b.foldl (fun n d => n * 256 + d.toNat) 0

/-- The lowest `len` base-256 digits of a number, most significant first. -/
def ofNat : (len : Nat) → Nat → Bytes
  | 0, _ => []
  | len + 1, n => UInt8.ofNat (n / 256 ^ len) :: ofNat len n

/-- The byte string without its leading zero bytes. -/
def trimZeros (b : Bytes) : Bytes :=
  b.dropWhile (· == 0)

/-- The byte string with zero bytes before it, up to the given length. A longer one stays as it
is. -/
def padZeros (len : Nat) (b : Bytes) : Bytes :=
  List.replicate (len - b.length) 0 ++ b

/-- The first `n` bytes and the bytes after them, when there are that many. -/
def splitAt? (n : Nat) (b : Bytes) : Option (Bytes × Bytes) :=
  if n ≤ b.length then some (b.take n, b.drop n) else none

/-- The first `count` groups of `size` bytes. -/
def groups (size : Nat) : (count : Nat) → Bytes → List Bytes
  | 0, _ => []
  | count + 1, b => b.take size :: groups size count (b.drop size)

/-- Bytewise exclusive or, as long as the shorter operand. -/
def xor (a b : Bytes) : Bytes :=
  a.zipWith (· ^^^ ·) b

/-- The text that the byte string encodes in UTF-8, if it is well-formed. -/
def toText? (b : Bytes) : Option String :=
  String.fromUTF8? ⟨b.toArray⟩

/-- The UTF-8 encoding of a text. -/
def ofText (s : String) : Bytes :=
  s.toUTF8.data.toList

/-! ## Small laws -/

/-- The number before the bytes counts by their length. -/
theorem foldl_toNat (b : Bytes) (n : Nat) :
    b.foldl (fun n d => n * 256 + d.toNat) n = n * 256 ^ b.length + toNat b := by
  unfold toNat
  induction b generalizing n with
  | nil => simp
  | cons d b ih =>
    simp only [List.foldl_cons, List.length_cons]
    rw [ih (n * 256 + d.toNat), ih (0 * 256 + d.toNat), Nat.pow_succ, Nat.add_mul, Nat.mul_assoc,
      Nat.mul_comm (256 ^ b.length) 256, Nat.zero_mul, Nat.zero_add, Nat.add_assoc]

/-- The first byte is the highest digit. -/
theorem toNat_cons (d : UInt8) (b : Bytes) :
    toNat (d :: b) = d.toNat * 256 ^ b.length + toNat b := by
  rw [← foldl_toNat]
  simp [toNat]

@[simp] theorem toNat_nil : toNat [] = 0 := rfl

@[simp] theorem length_ofNat (len n : Nat) : (ofNat len n).length = len := by
  induction len with
  | zero => rfl
  | succ len ih => simp [ofNat, ih]

/-- A byte string is a number below the next power of the base. -/
theorem toNat_lt (b : Bytes) : toNat b < 256 ^ b.length := by
  induction b with
  | nil => simp
  | cons d b ih =>
    have hd : d.toNat ≤ 255 := by have := d.toNat_lt; omega
    have := Nat.mul_le_mul_right (256 ^ b.length) hd
    rw [toNat_cons, List.length_cons, Nat.pow_succ]
    omega

/-- Leading zero bytes do not count. -/
@[simp] theorem toNat_trimZeros (b : Bytes) : toNat (trimZeros b) = toNat b := by
  induction b with
  | nil => rfl
  | cons d b ih =>
    by_cases h : d = 0
    · subst h
      rw [toNat_cons, ← ih]
      simp [trimZeros]
    · simp [trimZeros, h]

/-- Bytes of a known length are split off. -/
theorem splitAt?_append (a b : Bytes) : splitAt? a.length (a ++ b) = some (a, b) := by
  simp [splitAt?]

/-- What is split off has the length that was told. -/
theorem splitAt?_eq_some {n : Nat} {b front rest : Bytes} (h : splitAt? n b = some (front, rest)) :
    b = front ++ rest ∧ front.length = n := by
  unfold splitAt? at h
  split at h
  · simp only [Option.some.injEq, Prod.mk.injEq] at h
    obtain ⟨rfl, rfl⟩ := h
    exact ⟨(List.take_append_drop n b).symm, List.length_take_of_le ‹n ≤ b.length›⟩
  · simp at h

/-- Nothing can be split off exactly if there are too few bytes. -/
theorem splitAt?_eq_none {n : Nat} {b : Bytes} : splitAt? n b = none ↔ b.length < n := by
  simp [splitAt?]

/-- Bytes that are long enough begin with that many. -/
theorem exists_append_of_le {n : Nat} {b : Bytes} (h : n ≤ b.length) :
    ∃ front rest, b = front ++ rest ∧ front.length = n :=
  ⟨b.take n, b.drop n, (List.take_append_drop n b).symm, List.length_take_of_le h⟩

/-- Bytes are a text exactly if they are its encoding. -/
theorem toText?_eq_some {b : Bytes} {s : String} : b.toText? = some s ↔ b = ofText s := by
  refine ⟨fun h => ?_, fun h => ?_⟩
  · unfold toText? String.fromUTF8? at h
    split at h
    · cases h
      simp [ofText, String.fromUTF8]
    · cases h
  · subst h
    have hbytes : (⟨(ofText s).toArray⟩ : ByteArray) = s.toByteArray := rfl
    rw [toText?, hbytes]
    exact dif_pos s.isValidUTF8

end Bytes

end Attestation
