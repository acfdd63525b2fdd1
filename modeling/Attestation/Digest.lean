import Attestation.Digest.Sha1
import Attestation.Digest.Sha2

/-!
# Digests

The four hash functions that attestation statements use, by name. Each gives a byte string of its
`size`, whatever the message (`length_hash`).
-/

namespace Attestation

/-- A hash function. -/
inductive Digest where
  | sha1
  | sha256
  | sha384
  | sha512
  deriving DecidableEq, Repr

namespace Digest

/-- The length of the digest in bytes. -/
def size : Digest → Nat
  | sha1 => 20
  | sha256 => 32
  | sha384 => 48
  | sha512 => 64

/-- The digest of a message. -/
def hash : Digest → Bytes → Bytes
  | sha1 => Sha1.hash
  | sha256 => Sha2.sha256.hash
  | sha384 => Sha2.sha384.hash
  | sha512 => Sha2.sha512.hash

/-- A hash has the size of its function. -/
@[simp] theorem length_hash (d : Digest) (message : Bytes) : (d.hash message).length = d.size := by
  cases d
  · exact Sha1.length_hash message
  all_goals exact Sha2.Variant.length_hash _ message

end Digest

end Attestation
