import Attestation.Certificate.Key
import Attestation.Registration

/-!
# Verdicts

What a verified registration attests, and the certificates by which a relying party decides whether
to trust that.
-/

namespace Attestation

/-- What is attested, and by whom. -/
inductive AttestationType where
  /-- By a key that a group of authenticators shares. -/
  | basic
  /-- By the credential key itself. -/
  | selfAttestation
  /-- By a key that an attestation authority certifies. -/
  | attCa
  /-- By a key that an authority certifies for this registration alone. -/
  | anonCa
  /-- By an anonymous group signature. -/
  | ecdaa
  /-- Nothing is attested. -/
  | none
  deriving DecidableEq, Repr

/-- The result of a verification that succeeds. -/
structure Verdict where
  type : AttestationType
  /-- The certificates, the one of the attestation key first. -/
  trustPath : Option (List Bytes)
  deriving DecidableEq, Repr

/-- The certificate of the attestation key, the first one of a list. -/
def leafCertificate (certificates : List Bytes) : Result Certificate :=
  match certificates with
  | der :: _ => Certificate.parse der
  | [] => .error (.missingStatement .certificates)

/-- What is there, or else the error. -/
def orError {α : Type} (e : Error) : Option α → Result α
  | some x => .ok x
  | none => .error e

/-- Refuses, for the given reason, unless the condition holds. -/
def ensure (condition : Bool) (e : Error) : Result Unit :=
  if condition then .ok () else .error e

end Attestation
