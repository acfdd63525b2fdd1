/-!
# Attestation statement formats

The formats that have a verification procedure here, by their registered names.
-/

namespace Attestation

/-- An attestation statement format. -/
inductive Format where
  | tpm
  | packed
  | androidKey
  | androidSafetyNet
  | fidoU2f
  | apple
  | none
  deriving DecidableEq, Repr

namespace Format

/-- The registered name. -/
def name : Format → String
  | tpm => "tpm"
  | packed => "packed"
  | androidKey => "android-key"
  | androidSafetyNet => "android-safetynet"
  | fidoU2f => "fido-u2f"
  | apple => "apple"
  | none => "none"

/-- All the formats. -/
def all : List Format :=
  [tpm, packed, androidKey, androidSafetyNet, fidoU2f, apple, none]

/-- The format with the given name. -/
def ofName? (s : String) : Option Format :=
  all.find? fun f => f.name == s

theorem ofName?_name (f : Format) : ofName? f.name = some f := by
  cases f <;> decide

theorem name_of_ofName? {s : String} {f : Format} (h : ofName? s = some f) : f.name = s := by
  simpa using List.find?_some h

end Format

end Attestation
