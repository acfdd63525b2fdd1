import Attestation.Error

/-!
# Checked accesses

A program that works on offsets may go out of range: a slice or an index that is not in its byte
string, a copy into a place of another size, a difference below zero, a sum that does not fit its
word. Each of these stops it with a `Trap`, which is no answer. `Checked` computations are made of
such steps; a `CheckedResult` may also refuse its input, as a `Result` does, and a refusal is an
answer. What the library decodes with readers is written here once more with offsets, so that it can
be shown never to be stopped.
-/

namespace Attestation

/-- Why a program is stopped. -/
inductive Trap where
  | slice (start stop length : Nat)
  | index (position length : Nat)
  | copy (target source : Nat)
  | difference (m n : Nat)
  | sum (m n : Nat)
  deriving DecidableEq, Repr

/-- A computation that goes on as long as it is in range. -/
abbrev Checked (α : Type) := Except Trap α

/-- A computation that goes on as long as it is in range, and may refuse its input. -/
abbrev CheckedResult (α : Type) := ExceptT Error (Except Trap) α

namespace Checked

/-- The bytes from `start` on and before `stop`. -/
def slice (b : Bytes) (start stop : Nat) : Checked Bytes :=
  if start ≤ stop ∧ stop ≤ b.length then .ok ((b.take stop).drop start)
  else .error (.slice start stop b.length)

/-- The bytes before `stop`. -/
def sliceTo (b : Bytes) (stop : Nat) : Checked Bytes :=
  slice b 0 stop

/-- The bytes from `start` on. -/
def sliceFrom (b : Bytes) (start : Nat) : Checked Bytes :=
  slice b start b.length

/-- The byte at a position. -/
def index (b : Bytes) (position : Nat) : Checked UInt8 :=
  match b[position]? with
  | some d => .ok d
  | none => .error (.index position b.length)

/-- The bytes at as many positions from `start` on, one by one. -/
def indices (b : Bytes) (start : Nat) : (count : Nat) → Checked Bytes
  | 0 => .ok []
  | count + 1 => do
    let d ← index b start
    let rest ← indices b (start + 1) count
    return d :: rest

/-- A copy of the bytes in a place for as many as told. -/
def copy (size : Nat) (b : Bytes) : Checked Bytes :=
  if b.length = size then .ok b else .error (.copy size b.length)

/-- The difference of two sizes. -/
def sub (m n : Nat) : Checked Nat :=
  if n ≤ m then .ok (m - n) else .error (.difference m n)

/-- The sum of two words. -/
def add32 (m n : UInt32) : Checked UInt32 :=
  if m.toNat + n.toNat < 2 ^ 32 then .ok (m + n) else .error (.sum m.toNat n.toNat)

/-- The bytes without leading zero bytes: those from the first one on that is not zero, or none. -/
def trimZeros (b : Bytes) : Checked Bytes :=
  sliceFrom b (b.findIdx (· != 0))

/-- The sum of two sizes, if it fits a word of 64 bits. -/
def addSize? (m n : Nat) : Option Nat :=
  if m + n < 2 ^ 64 then some (m + n) else none

/-- The bytes in another size: cut off at the end, or with zero bytes after them. -/
def resize (size : Nat) (b : Bytes) : Bytes :=
  b.take size ++ List.replicate (size - b.length) 0

/-- A result, with no access at all. -/
def ofResult {α : Type} (x : Result α) : CheckedResult α :=
  ExceptT.mk (.ok x)

/-! ## Small laws -/

variable {a b m : Bytes}

/-- The bytes before an index that is not beyond the end. -/
theorem sliceTo_append {n : Nat} (h : a.length = n) : sliceTo (a ++ b) n = .ok a := by
  subst h
  simp [sliceTo, slice]

/-- The bytes from an index that is not beyond the end. -/
theorem sliceFrom_append {n : Nat} (h : a.length = n) : sliceFrom (a ++ b) n = .ok b := by
  subst h
  have htake : (a ++ b).take (a ++ b).length = a ++ b := List.take_length
  rw [sliceFrom, slice, if_pos ⟨by simp, Nat.le_refl _⟩, htake, List.drop_left]

/-- The byte at an index before the end. -/
theorem index_append {d : UInt8} {n : Nat} (h : a.length = n) : index (a ++ d :: b) n = .ok d := by
  subst h
  simp [index]

/-- The bytes at indices before the end. -/
theorem indices_append {n count : Nat} (ha : a.length = n) (hm : m.length = count) :
    indices (a ++ (m ++ b)) n count = .ok m := by
  subst ha hm
  induction m generalizing a with
  | nil => rfl
  | cons d m ih =>
    have hd : index (a ++ (d :: m ++ b)) a.length = .ok d := index_append rfl
    have hm : indices (a ++ (d :: m ++ b)) (a.length + 1) m.length = .ok m := by
      have := ih (a := a ++ [d])
      simpa using this
    rw [List.length_cons, indices, hd]
    simp only [bind, Except.bind, hm]
    rfl

theorem indices_all (b : Bytes) : indices b 0 b.length = .ok b := by
  have := indices_append (a := []) (m := b) (b := []) rfl rfl
  simpa using this

/-- A copy between arrays of one length does not fail. -/
theorem copy_of_length {size : Nat} (h : b.length = size) : copy size b = .ok b :=
  if_pos h

/-- A difference that is not negative is no underflow. -/
theorem sub_of_le {m n : Nat} (h : n ≤ m) : sub m n = .ok (m - n) :=
  if_pos h

/-- Trimming stays in range. -/
theorem trimZeros_eq (b : Bytes) : trimZeros b = .ok b.trimZeros := by
  have hle : b.findIdx (· != 0) ≤ b.length := List.findIdx_le_length
  have hdrop : b.trimZeros = b.drop (b.findIdx (· != 0)) := List.dropWhile_eq_drop_findIdx_not
  rw [trimZeros, sliceFrom, slice, if_pos ⟨hle, Nat.le_refl _⟩, List.take_length, hdrop]

/-- A chain of steps gives a result if the steps do. -/
theorem bind_eq_ofResult {α β : Type} {x : CheckedResult α} {y : Result α}
    {f : α → CheckedResult β} {g : α → Result β} (hx : x = ofResult y)
    (hf : ∀ a, f a = ofResult (g a)) : x >>= f = ofResult (y >>= g) := by
  subst hx
  cases y with
  | ok a => exact hf a
  | error e => rfl

/-- An access that is in range is no obstacle, whatever steps it is among. -/
theorem liftM_eq_pure {m : Type → Type} [Monad m] [MonadLiftT (Except Trap) m]
    [LawfulMonadLiftT (Except Trap) m] {α : Type} {x : Checked α} {a : α} (h : x = .ok a) :
    (liftM x : m α) = pure a := by
  subst h
  exact liftM_pure a

end Checked

end Attestation
