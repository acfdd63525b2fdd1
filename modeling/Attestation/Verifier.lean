import Attestation.Verification.AndroidKey
import Attestation.Verification.Apple
import Attestation.Verification.FidoU2f
import Attestation.Verification.Packed
import Attestation.Verification.SafetyNet
import Attestation.Verification.Tpm

/-!
# Verifiers

A verifier hands a registration to the first validator that supports its format: one of those that
were added to it, the last one first, or else the one that is built in for the format
(`Verifier.validatorFor`). The present is an argument, so that a verification is a function.
-/

namespace Attestation

/-- Verifies registrations of some formats. -/
structure Validator where
  /-- The format with this name is supported. -/
  supports : String → Bool
  validate : Registration → Result Verdict

namespace Format

/-- Verifies a registration by the procedure of the format, which refuses the statement of another
one. -/
def verify (config : Config) (now : Instant) (format : Format) (r : Registration) :
    Result Verdict :=
  match format, r.statement with
  | .tpm, .tpm s => s.verify config.devicePolicy r
  | .packed, .packed s => s.verify r
  | .androidKey, .androidKey s => s.verify config.teeOnly r
  | .androidSafetyNet, .androidSafetyNet s => s.verify config now r
  | .fidoU2f, .fidoU2f s => s.verify r
  | .apple, .apple s => s.verify r
  | .none, .none => r.credential.map fun _ => ⟨.none, Option.none⟩
  | format, _ => .error (.missingStatement (.otherStatement format))

end Format

namespace Validator

/-- The validator that is built in for a format. It refuses registrations of other formats. -/
def builtIn (config : Config) (now : Instant) (format : Format) : Validator where
  supports name := name == format.name
  validate r :=
    if r.format = format.name then format.verify config now r
    else .error (.unsupportedFormat (.unknown r.format))

end Validator

/-- A verifier. -/
structure Verifier where
  config : Config := {}
  /-- The validators that were added, the last one first. -/
  added : List Validator := []

namespace Verifier

/-- The verifier with one more validator, which goes before the others. -/
def addValidator (v : Verifier) (validator : Validator) : Verifier :=
  { v with added := validator :: v.added }

/-- All the validators, in the order in which they are asked. -/
def validators (v : Verifier) (now : Instant) : List Validator :=
  v.added ++ Format.all.map (Validator.builtIn v.config now)

/-- The number of validators. -/
def size (v : Verifier) : Nat :=
  v.added.length + Format.all.length

/-- The verifier as a text, which tells only how many validators it has. -/
def text (v : Verifier) : String :=
  "AttestationVerifier \x7b validators: " ++ toString v.size ++ " \x7d"

/-- The validator that a format is handed to. -/
def validatorFor (v : Verifier) (now : Instant) (format : String) : Result Validator :=
  match (v.validators now).find? fun validator => validator.supports format with
  | some validator => .ok validator
  | none => .error (.unsupportedFormat (.unknown format))

/-- Verifies a registration. -/
def verify (v : Verifier) (now : Instant) (r : Registration) : Result Verdict := do
  let validator ← v.validatorFor now r.format
  validator.validate r

/-- The validators are as many as the verifier says. -/
theorem length_validators (v : Verifier) (now : Instant) : (v.validators now).length = v.size := by
  simp [validators, size]

end Verifier

end Attestation
