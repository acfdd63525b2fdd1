import Attestation.Digest.Block

/-!
# SHA-1

Eighty rounds over five words of 32 bits. It is here for statements of old devices: a TPM may name
its objects by SHA-1, and the algorithm RS1 signs with it.
-/

namespace Attestation.Digest.Sha1

/-- The five words that a round transforms. -/
structure State where
  a : BitVec 32
  b : BitVec 32
  c : BitVec 32
  d : BitVec 32
  e : BitVec 32

/-- The initial state. -/
def initial : State :=
  ⟨0x67452301, 0xefcdab89, 0x98badcfe, 0x10325476, 0xc3d2e1f0⟩

/-- The wordwise sum. -/
def State.add (s t : State) : State :=
  ⟨s.a + t.a, s.b + t.b, s.c + t.c, s.d + t.d, s.e + t.e⟩

/-- The word that the schedule appends to a window of sixteen words. -/
def nextWord (window : List (BitVec 32)) : BitVec 32 :=
  (window.getD 13 0 ^^^ window.getD 8 0 ^^^ window.getD 2 0 ^^^ window.getD 0 0).rotateLeft 1

/-- The parity of three words, bit by bit. -/
def parity (b c d : BitVec 32) : BitVec 32 :=
  b ^^^ c ^^^ d

/-- The four phases of twenty rounds, each with its function of three words and its constant. -/
def phases : List ((BitVec 32 → BitVec 32 → BitVec 32 → BitVec 32) × BitVec 32) := [
  (fun b c d => (b &&& c) ^^^ (~~~b &&& d), 0x5a827999),
  (parity, 0x6ed9eba1),
  (fun b c d => (b &&& c) ^^^ (b &&& d) ^^^ (c &&& d), 0x8f1bbcdc),
  (parity, 0xca62c1d6)]

/-- One round: the phase that it belongs to and its word of the schedule. -/
def round (f : BitVec 32 → BitVec 32 → BitVec 32 → BitVec 32) (k : BitVec 32) (s : State)
    (word : BitVec 32) : State :=
  ⟨s.a.rotateLeft 5 + f s.b s.c s.d + s.e + k + word, s.a, s.b.rotateLeft 30, s.c, s.d⟩

/-- Twenty rounds a phase, and the words of the schedule that are left for later phases. -/
def runPhase (sw : State × List (BitVec 32))
    (phase : (BitVec 32 → BitVec 32 → BitVec 32 → BitVec 32) × BitVec 32) :
    State × List (BitVec 32) :=
  ((sw.2.take 20).foldl (round phase.1 phase.2) sw.1, sw.2.drop 20)

/-- The state after one more block. -/
def compress (s : State) (block : Bytes) : State :=
  s.add (phases.foldl runPhase (s, schedule nextWord 80 (words 32 block))).1

/-- The digest of a message. -/
def hash (message : Bytes) : Bytes :=
  let last := (blocks 64 (pad 64 8 message)).foldl compress initial
  wordBytes [last.a, last.b, last.c, last.d, last.e]

/-- The hash is five words of four bytes. -/
theorem length_hash (message : Bytes) : (hash message).length = 20 := by
  simp [hash]

end Attestation.Digest.Sha1
