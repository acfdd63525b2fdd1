import Attestation.Json.Value

/-!
# Keys in token headers

The header of a token may hold a key as JSON. Nothing is verified with it, but it has to be a key:
an object with the parameters of one of four types of keys, in which the common parameters, as far
as they are there, have their types. All of it is read, also members that no type of keys has.
-/

namespace Attestation.SafetyNet

open Json (Value)

namespace WebKey

/-- The names of the common parameters. -/
def commonNames : List String :=
  ["use", "key_ops", "alg", "kid", "x5u", "x5c", "x5t", "x5t#S256"]

/-- The algorithms that a key may be meant for. -/
def keyAlgorithms : List String :=
  ["HS256", "HS384", "HS512", "ES256", "ES384", "RS256", "RS384", "RS512", "PS256", "PS384",
    "PS512", "EdDSA", "RSA1_5", "RSA-OAEP", "RSA-OAEP-256"]

/-- The curves of keys. -/
def curves : List String := ["P-256", "P-384", "P-521", "Ed25519"]

/-- The value is one of the names. -/
def isOneOf (names : List String) (v : Value) : Option Unit := do
  let name ← v.name?
  if name ∈ names then some () else none

/-- The value names one of the algorithms, or is an object with a member of such a name and an empty
object in it. -/
def isAlgorithm : Value → Option Unit
  | .object [(raw, .object [])] => isOneOf keyAlgorithms (.string raw)
  | v => isOneOf keyAlgorithms v

/-- The common parameters have their types. -/
def hasCommon (v : Value) : Bool :=
  ((do
    let members ← v.members? commonNames
    let _ ← members.optional "key_ops" Value.texts?
    let _ ← members.optional "alg" isAlgorithm
    let _ ← members.optional "x5c" Value.texts?
    let _ ← ["use", "kid", "x5u", "x5t", "x5t#S256"].mapM fun name =>
      members.optional name Value.text?) : Option Unit).isSome

/-- The object has the given type and texts, and a curve if that is asked for. -/
def isKey (type : String) (withCurve : Bool) (texts : List String) (v : Value) : Bool :=
  let curveNames := if withCurve then ["crv"] else []
  ((do
    let members ← v.members? ("kty" :: curveNames ++ texts)
    let _ ← (members.get? "kty").bind (isOneOf [type])
    let _ ← curveNames.mapM fun name => (members.get? name).bind (isOneOf curves)
    let _ ← texts.mapM fun name => (members.get? name).bind Value.text?) : Option Unit).isSome

/-- The value is a key. It stands in a record, which is one level of nesting. -/
def isWebKey (v : Value) : Bool :=
  v.isReadable (Value.maxDepth - 1) && hasCommon v &&
    (isKey "EC" true ["x", "y"] v || isKey "RSA" false ["n", "e"] v || isKey "oct" false ["k"] v ||
      isKey "OKP" true ["x"] v)

end WebKey

end Attestation.SafetyNet
