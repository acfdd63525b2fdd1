/-!
# Algorithms of signed tokens

The algorithms that the header of a signed web token may name.
-/

namespace Attestation.SafetyNet

/-- An algorithm of a signed web token. -/
inductive TokenAlgorithm where
  | hs256
  | hs384
  | hs512
  | es256
  | es384
  | rs256
  | rs384
  | rs512
  | ps256
  | ps384
  | ps512
  | edDSA
  deriving DecidableEq, Repr

namespace TokenAlgorithm

/-- The registered name. -/
def name : TokenAlgorithm → String
  | hs256 => "HS256"
  | hs384 => "HS384"
  | hs512 => "HS512"
  | es256 => "ES256"
  | es384 => "ES384"
  | rs256 => "RS256"
  | rs384 => "RS384"
  | rs512 => "RS512"
  | ps256 => "PS256"
  | ps384 => "PS384"
  | ps512 => "PS512"
  | edDSA => "EdDSA"

/-- All the algorithms. -/
def all : List TokenAlgorithm :=
  [hs256, hs384, hs512, es256, es384, rs256, rs384, rs512, ps256, ps384, ps512, edDSA]

/-- The algorithm with the given name. -/
def ofName? (s : String) : Option TokenAlgorithm :=
  all.find? fun alg => alg.name == s

/-- Algorithms have different names. -/
theorem ofName?_name (alg : TokenAlgorithm) : ofName? alg.name = some alg := by
  cases alg <;> decide

end TokenAlgorithm

end Attestation.SafetyNet
