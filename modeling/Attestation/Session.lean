import Attestation.Verifier

/-!
# Sessions

A process makes verifiers and adds validators to them. Besides it has one default verifier, to which
nothing can be added, and a default configuration, which is read from the environment when it is
first used and stays what it was then. What a process does with verifiers is a list of actions.
-/

namespace Attestation

/-- The verifiers of a process. -/
structure Session where
  /-- The texts that are set in the environment. -/
  texts : Config.Environment
  /-- The default configuration, from its first use on. -/
  defaults : Option Config := none
  /-- The verifiers that were made, the first one first. -/
  own : List Verifier := []

namespace Session

/-- What changes a session. -/
inductive Action where
  /-- The environment gets other texts. -/
  | setTexts (texts : Config.Environment)
  /-- The default configuration is used, for a verifier that is made or by the default one. -/
  | useDefaults
  /-- A verifier is made. -/
  | make (config : Config)
  /-- A validator is added to the verifier that was made at this place. -/
  | addValidator (index : Nat) (validator : Validator)

/-- A session in which nothing has been used yet. -/
def start (texts : Config.Environment) : Session :=
  { texts }

/-- The default configuration, which is that of the environment as long as it has not been used. -/
def config (s : Session) : Config :=
  s.defaults.getD (Config.ofEnvironment s.texts).1

/-- The session after an action. -/
def step (s : Session) : Action → Session
  | .setTexts texts => { s with texts }
  | .useDefaults => { s with defaults := some s.config }
  | .make config => { s with own := s.own ++ [{ config }] }
  | .addValidator index validator =>
    { s with own := s.own.modify index (·.addValidator validator) }

/-- The session after some actions. -/
def run (s : Session) (history : List Action) : Session :=
  history.foldl step s

/-- Verifies a registration with the default verifier. -/
def verify (s : Session) (now : Instant) (r : Registration) : Result Verdict :=
  ({ config := s.config } : Verifier).verify now r

end Session

end Attestation
