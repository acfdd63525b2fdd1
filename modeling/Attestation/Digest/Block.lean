import Attestation.Bytes

/-!
# Padding and message schedules

What the hash functions of the Secure Hash Standard share: the padding of a message to whole
blocks, the words of a block, and the schedule that stretches the sixteen words of a block to one
word per round.
-/

namespace Attestation.Digest

/-- The message, the byte `80`, as few zero bytes as reach a whole block, and the length of the
message in bits in `lengthBytes` bytes. -/
def pad (blockBytes lengthBytes : Nat) (message : Bytes) : Bytes :=
  let used := message.length + 1 + lengthBytes
  let zeros := (blockBytes - used % blockBytes) % blockBytes
  message ++ 0x80 :: (List.replicate zeros 0 ++ Bytes.ofNat lengthBytes (8 * message.length))

/-- The blocks of a padded message. -/
def blocks (blockBytes : Nat) (padded : Bytes) : List Bytes :=
  padded.groups blockBytes (padded.length / blockBytes)

/-- The big-endian words of `w` bits that make up a block. -/
def words (w : Nat) (block : Bytes) : List (BitVec w) :=
  (block.groups (w / 8) (8 * block.length / w)).map fun g => BitVec.ofNat w g.toNat

/-- The bytes of a list of words. -/
def wordBytes {w : Nat} (ws : List (BitVec w)) : Bytes :=
  ws.flatMap fun x => Bytes.ofNat (w / 8) x.toNat

/-- A schedule of `rounds` words. The window holds the next sixteen of them; each step gives its
first word and appends the word that `next` makes of the window. -/
def schedule {w : Nat} (next : List (BitVec w) → BitVec w) :
    (rounds : Nat) → (window : List (BitVec w)) → List (BitVec w)
  | 0, _ => []
  | rounds + 1, window =>
    window.headD 0 :: schedule next rounds (window.tail ++ [next window])

/-- The schedule has a word for each round. -/
@[simp] theorem length_schedule {w : Nat} (next : List (BitVec w) → BitVec w) (rounds : Nat)
    (window : List (BitVec w)) : (schedule next rounds window).length = rounds := by
  induction rounds generalizing window with
  | zero => rfl
  | succ rounds ih => simp [schedule, ih]

/-- Each word is written in an eighth of its bits. -/
@[simp] theorem length_wordBytes {w : Nat} (ws : List (BitVec w)) :
    (wordBytes ws).length = w / 8 * ws.length := by
  induction ws with
  | nil => rfl
  | cons x ws ih =>
    simp only [wordBytes] at ih
    simp [wordBytes, ih, Nat.mul_add, Nat.add_comm]

end Attestation.Digest
