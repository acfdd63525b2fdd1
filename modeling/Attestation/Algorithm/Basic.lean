import Attestation.Digest

/-!
# Signature algorithms

The signature algorithms that a statement may name by a COSE identifier, with the digest that each
of them signs with. EdDSA hashes on its own and has none.
-/

namespace Attestation

/-- A signature algorithm. -/
inductive Algorithm where
  | es256
  | es384
  | es512
  | edDSA
  | rs256
  | rs384
  | rs512
  | ps256
  | ps384
  | ps512
  | rs1
  deriving DecidableEq, Repr

namespace Algorithm

/-- The identifier in the COSE registry. -/
def id : Algorithm → Int
  | es256 => -7
  | es384 => -35
  | es512 => -36
  | edDSA => -8
  | rs256 => -257
  | rs384 => -258
  | rs512 => -259
  | ps256 => -37
  | ps384 => -38
  | ps512 => -39
  | rs1 => -65535

/-- The name in the COSE registry. -/
def name : Algorithm → String
  | es256 => "ES256"
  | es384 => "ES384"
  | es512 => "ES512"
  | edDSA => "EdDSA"
  | rs256 => "RS256"
  | rs384 => "RS384"
  | rs512 => "RS512"
  | ps256 => "PS256"
  | ps384 => "PS384"
  | ps512 => "PS512"
  | rs1 => "RS1"

/-- All the algorithms. -/
def all : List Algorithm :=
  [es256, es384, es512, edDSA, rs256, rs384, rs512, ps256, ps384, ps512, rs1]

/-- The algorithm with the given identifier. -/
def ofId? (n : Int) : Option Algorithm :=
  all.find? fun alg => alg.id == n

/-- The digest that the algorithm signs with. -/
def digest? : Algorithm → Option Digest
  | es256 | rs256 | ps256 => some .sha256
  | es384 | rs384 | ps384 => some .sha384
  | es512 | rs512 | ps512 => some .sha512
  | rs1 => some .sha1
  | edDSA => none

theorem ofId?_id (alg : Algorithm) : ofId? alg.id = some alg := by
  cases alg <;> rfl

theorem id_of_ofId? {n : Int} {alg : Algorithm} (h : ofId? n = some alg) : alg.id = n := by
  simpa using List.find?_some h

end Algorithm

end Attestation
