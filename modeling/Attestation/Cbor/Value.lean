import Attestation.Bytes
import Attestation.Cbor.Real
import Attestation.Error

/-!
# Items of the concise binary object representation

The generic data model: integers of 64 bits and a sign, byte strings, texts, floating-point numbers,
truth values, null, tagged items, arrays, and maps as lists of entries in their written order, with
repeated keys kept. Two items are the same (`Value.same`) when they agree part by part,
floating-point numbers as numbers. Identifiers in statements and keys are signed integers of 64
bits, while an item can hold more (`signed64`).
-/

namespace Attestation.Cbor

/-- An item. -/
inductive Value where
  | unsigned (n : UInt64)
  /-- The integer `-1 - n`. -/
  | negative (n : UInt64)
  | bytes (b : Bytes)
  | text (s : String)
  /-- A floating-point number, by its 64 bits. -/
  | real (bits : UInt64)
  | bool (b : Bool)
  | null
  | tag (number : UInt64) (content : Value)
  | array (items : List Value)
  | map (entries : List (Value × Value))
  deriving Inhabited

/-- The entries of a map. -/
abbrev Entries := List (Value × Value)

namespace Value

/-- The integer that an item is, if it is one. -/
def toInt? : Value → Option Int
  | unsigned n => some n.toNat
  | negative n => some (-1 - n.toNat)
  | _ => none

/-- An integer as an item; the result is that integer when it needs no more than 64 bits and a
sign. -/
def ofInt : Int → Value
  | .ofNat n => unsigned (UInt64.ofNat n)
  | .negSucc n => negative (UInt64.ofNat n)

mutual

/-- The items agree part by part, floating-point numbers as numbers. -/
def same : Value → Value → Bool
  | unsigned m, unsigned n => m == n
  | negative m, negative n => m == n
  | bytes a, bytes b => a == b
  | text s, text t => s == t
  | real a, real b => Real.equal a b
  | bool a, bool b => a == b
  | null, null => true
  | tag m v, tag n w => m == n && same v w
  | array vs, array ws => sameItems vs ws
  | map vs, map ws => sameEntries vs ws
  | _, _ => false

/-- The lists have the same items in the same order. -/
def sameItems : List Value → List Value → Bool
  | [], [] => true
  | v :: vs, w :: ws => same v w && sameItems vs ws
  | _, _ => false

/-- The lists have the same entries in the same order. -/
def sameEntries : Entries → Entries → Bool
  | [], [] => true
  | (k, v) :: vs, (l, w) :: ws => same k l && same v w && sameEntries vs ws
  | _, _ => false

end

end Value

namespace Entries

/-- The value of the first entry whose key is the given integer. -/
def atInt? (entries : Entries) (label : Int) : Option Value :=
  (entries.find? fun entry => entry.1.toInt? == some label).map Prod.snd

/-- The value of the first entry whose key is the given text. -/
def atText? (entries : Entries) (name : String) : Option Value :=
  (entries.find? fun entry => match entry.1 with
    | .text s => s == name
    | _ => false).map Prod.snd

end Entries

/-! ## Integers of 64 bits -/

/-- The integer lies in the range of signed integers of 64 bits. -/
def Signed64 (n : Int) : Prop :=
  -2 ^ 63 ≤ n ∧ n < 2 ^ 63

instance (n : Int) : Decidable (Signed64 n) :=
  inferInstanceAs (Decidable (_ ∧ _))

/-- An integer in the range of signed integers of 64 bits as it is; others are refused. -/
def signed64 (n : Int) : Result Int :=
  if Signed64 n then .ok n else .error (.malformedInput .integerRange)

end Attestation.Cbor
