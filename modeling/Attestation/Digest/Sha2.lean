import Attestation.Digest.Block

/-!
# The hash functions with sigma rounds

SHA-256 works on words of 32 bits, SHA-384 and SHA-512 on words of 64 bits; the three differ in
nothing else than their word size, rotation amounts, constants and length. `Sha2.Variant` holds
these, and `Sha2.Variant.hash` is the one function they share.
-/

namespace Attestation.Digest.Sha2

/-- What tells the hash functions of this family apart, for words of `w` bits. -/
structure Variant (w : Nat) where
  /-- The initial state: eight words. -/
  initial : List (BitVec w)
  /-- One constant a round. -/
  constants : List (BitVec w)
  /-- The rotations of the sigma on the first word of the state. -/
  bigSigma0 : Nat × Nat × Nat
  /-- The rotations of the sigma on the fifth word of the state. -/
  bigSigma1 : Nat × Nat × Nat
  /-- The two rotations and the shift of the sigma on the second word of the window. -/
  smallSigma0 : Nat × Nat × Nat
  /-- The two rotations and the shift of the sigma on the fifteenth word of the window. -/
  smallSigma1 : Nat × Nat × Nat
  /-- How many words of the last state are the digest. -/
  resultWords : Nat

/-- The exclusive or of three rotations to the right. -/
def rotations {w : Nat} (r : Nat × Nat × Nat) (x : BitVec w) : BitVec w :=
  x.rotateRight r.1 ^^^ x.rotateRight r.2.1 ^^^ x.rotateRight r.2.2

/-- The exclusive or of two rotations to the right and one shift to the right. -/
def rotationsShift {w : Nat} (r : Nat × Nat × Nat) (x : BitVec w) : BitVec w :=
  x.rotateRight r.1 ^^^ x.rotateRight r.2.1 ^^^ x >>> r.2.2

/-- The eight words that a round transforms. -/
structure State (w : Nat) where
  a : BitVec w
  b : BitVec w
  c : BitVec w
  d : BitVec w
  e : BitVec w
  f : BitVec w
  g : BitVec w
  h : BitVec w

namespace State

/-- The state with the given words; a missing one is zero. -/
def ofList {w : Nat} (l : List (BitVec w)) : State w :=
  ⟨l.getD 0 0, l.getD 1 0, l.getD 2 0, l.getD 3 0, l.getD 4 0, l.getD 5 0, l.getD 6 0, l.getD 7 0⟩

/-- The words of a state in order. -/
def toList {w : Nat} (s : State w) : List (BitVec w) :=
  [s.a, s.b, s.c, s.d, s.e, s.f, s.g, s.h]

/-- The wordwise sum. -/
def add {w : Nat} (s t : State w) : State w :=
  ⟨s.a + t.a, s.b + t.b, s.c + t.c, s.d + t.d, s.e + t.e, s.f + t.f, s.g + t.g, s.h + t.h⟩

end State

namespace Variant

variable {w : Nat} (v : Variant w)

/-- The word that the schedule appends to a window of sixteen words. -/
def nextWord (window : List (BitVec w)) : BitVec w :=
  rotationsShift v.smallSigma1 (window.getD 14 0) + window.getD 9 0 +
    rotationsShift v.smallSigma0 (window.getD 1 0) + window.getD 0 0

/-- One round with its constant and its word of the schedule. -/
def round (s : State w) (kw : BitVec w × BitVec w) : State w :=
  let choice := (s.e &&& s.f) ^^^ (~~~s.e &&& s.g)
  let majority := (s.a &&& s.b) ^^^ (s.a &&& s.c) ^^^ (s.b &&& s.c)
  let t1 := s.h + rotations v.bigSigma1 s.e + choice + kw.1 + kw.2
  let t2 := rotations v.bigSigma0 s.a + majority
  ⟨t1 + t2, s.a, s.b, s.c, s.d + t1, s.e, s.f, s.g⟩

/-- The state after one more block. -/
def compress (s : State w) (block : Bytes) : State w :=
  let ws := schedule v.nextWord v.constants.length (words w block)
  s.add ((v.constants.zip ws).foldl v.round s)

/-- The digest of a message. A block holds sixteen words, and two words hold the length. -/
def hash (message : Bytes) : Bytes :=
  let last := (blocks (2 * w) (pad (2 * w) (w / 4) message)).foldl v.compress
    (State.ofList v.initial)
  wordBytes (last.toList.take v.resultWords)

/-- The hash is as many words of the state as the variant keeps. -/
theorem length_hash (message : Bytes) :
    (v.hash message).length = w / 8 * min v.resultWords 8 := by
  simp [hash, State.toList]

end Variant

/-- The round constants for words of 32 bits: the first 32 fractional bits of the cube roots of the
first 64 primes. -/
def constants32 : List (BitVec 32) := [
  0x428a2f98, 0x71374491, 0xb5c0fbcf, 0xe9b5dba5, 0x3956c25b, 0x59f111f1,
  0x923f82a4, 0xab1c5ed5, 0xd807aa98, 0x12835b01, 0x243185be, 0x550c7dc3,
  0x72be5d74, 0x80deb1fe, 0x9bdc06a7, 0xc19bf174, 0xe49b69c1, 0xefbe4786,
  0x0fc19dc6, 0x240ca1cc, 0x2de92c6f, 0x4a7484aa, 0x5cb0a9dc, 0x76f988da,
  0x983e5152, 0xa831c66d, 0xb00327c8, 0xbf597fc7, 0xc6e00bf3, 0xd5a79147,
  0x06ca6351, 0x14292967, 0x27b70a85, 0x2e1b2138, 0x4d2c6dfc, 0x53380d13,
  0x650a7354, 0x766a0abb, 0x81c2c92e, 0x92722c85, 0xa2bfe8a1, 0xa81a664b,
  0xc24b8b70, 0xc76c51a3, 0xd192e819, 0xd6990624, 0xf40e3585, 0x106aa070,
  0x19a4c116, 0x1e376c08, 0x2748774c, 0x34b0bcb5, 0x391c0cb3, 0x4ed8aa4a,
  0x5b9cca4f, 0x682e6ff3, 0x748f82ee, 0x78a5636f, 0x84c87814, 0x8cc70208,
  0x90befffa, 0xa4506ceb, 0xbef9a3f7, 0xc67178f2]

/-- The round constants for words of 64 bits: the first 64 fractional bits of the cube roots of the
first 80 primes. -/
def constants64 : List (BitVec 64) := [
  0x428a2f98d728ae22, 0x7137449123ef65cd, 0xb5c0fbcfec4d3b2f, 0xe9b5dba58189dbbc,
  0x3956c25bf348b538, 0x59f111f1b605d019, 0x923f82a4af194f9b, 0xab1c5ed5da6d8118,
  0xd807aa98a3030242, 0x12835b0145706fbe, 0x243185be4ee4b28c, 0x550c7dc3d5ffb4e2,
  0x72be5d74f27b896f, 0x80deb1fe3b1696b1, 0x9bdc06a725c71235, 0xc19bf174cf692694,
  0xe49b69c19ef14ad2, 0xefbe4786384f25e3, 0x0fc19dc68b8cd5b5, 0x240ca1cc77ac9c65,
  0x2de92c6f592b0275, 0x4a7484aa6ea6e483, 0x5cb0a9dcbd41fbd4, 0x76f988da831153b5,
  0x983e5152ee66dfab, 0xa831c66d2db43210, 0xb00327c898fb213f, 0xbf597fc7beef0ee4,
  0xc6e00bf33da88fc2, 0xd5a79147930aa725, 0x06ca6351e003826f, 0x142929670a0e6e70,
  0x27b70a8546d22ffc, 0x2e1b21385c26c926, 0x4d2c6dfc5ac42aed, 0x53380d139d95b3df,
  0x650a73548baf63de, 0x766a0abb3c77b2a8, 0x81c2c92e47edaee6, 0x92722c851482353b,
  0xa2bfe8a14cf10364, 0xa81a664bbc423001, 0xc24b8b70d0f89791, 0xc76c51a30654be30,
  0xd192e819d6ef5218, 0xd69906245565a910, 0xf40e35855771202a, 0x106aa07032bbd1b8,
  0x19a4c116b8d2d0c8, 0x1e376c085141ab53, 0x2748774cdf8eeb99, 0x34b0bcb5e19b48a8,
  0x391c0cb3c5c95a63, 0x4ed8aa4ae3418acb, 0x5b9cca4f7763e373, 0x682e6ff3d6b2b8a3,
  0x748f82ee5defb2fc, 0x78a5636f43172f60, 0x84c87814a1f0ab72, 0x8cc702081a6439ec,
  0x90befffa23631e28, 0xa4506cebde82bde9, 0xbef9a3f7b2c67915, 0xc67178f2e372532b,
  0xca273eceea26619c, 0xd186b8c721c0c207, 0xeada7dd6cde0eb1e, 0xf57d4f7fee6ed178,
  0x06f067aa72176fba, 0x0a637dc5a2c898a6, 0x113f9804bef90dae, 0x1b710b35131c471b,
  0x28db77f523047d84, 0x32caab7b40c72493, 0x3c9ebe0a15c9bebc, 0x431d67c49c100d4c,
  0x4cc5d4becb3e42b6, 0x597f299cfc657e2a, 0x5fcb6fab3ad6faec, 0x6c44198c4a475817]

/-- SHA-256. -/
def sha256 : Variant 32 where
  initial := [0x6a09e667, 0xbb67ae85, 0x3c6ef372, 0xa54ff53a,
    0x510e527f, 0x9b05688c, 0x1f83d9ab, 0x5be0cd19]
  constants := constants32
  bigSigma0 := (2, 13, 22)
  bigSigma1 := (6, 11, 25)
  smallSigma0 := (7, 18, 3)
  smallSigma1 := (17, 19, 10)
  resultWords := 8

/-- SHA-512. -/
def sha512 : Variant 64 where
  initial := [0x6a09e667f3bcc908, 0xbb67ae8584caa73b,
    0x3c6ef372fe94f82b, 0xa54ff53a5f1d36f1,
    0x510e527fade682d1, 0x9b05688c2b3e6c1f,
    0x1f83d9abfb41bd6b, 0x5be0cd19137e2179]
  constants := constants64
  bigSigma0 := (28, 34, 39)
  bigSigma1 := (14, 18, 41)
  smallSigma0 := (1, 8, 7)
  smallSigma1 := (19, 61, 6)
  resultWords := 8

/-- SHA-384 is SHA-512 from another initial state, cut to six words. -/
def sha384 : Variant 64 where
  initial := [0xcbbb9d5dc1059ed8, 0x629a292a367cd507,
    0x9159015a3070dd17, 0x152fecd8f70e5939,
    0x67332667ffc00b31, 0x8eb44a8768581511,
    0xdb0c2e0d64f98fa7, 0x47b5481dbefa4fa4]
  constants := constants64
  bigSigma0 := sha512.bigSigma0
  bigSigma1 := sha512.bigSigma1
  smallSigma0 := sha512.smallSigma0
  smallSigma1 := sha512.smallSigma1
  resultWords := 6

end Attestation.Digest.Sha2
