import Attestation.Base64
import Attestation.Calendar
import Attestation.Error
import Attestation.Json.Reader

/-!
# Responses of the attestation service

The claims that a signed response makes about a device, and whether its timestamp is near enough to
the present. `checkTimestamp` accepts a timestamp from the present less one duration to the present
and another one; an end of this window that has no date does not limit it.
-/

namespace Attestation.SafetyNet

open Json (Value)

/-- The claims of a response. -/
structure Response where
  nonce : Option String
  /-- The milliseconds from the beginning of 1970. -/
  timestamp : Option Int
  profileMatches : Bool
  basicIntegrity : Bool
  packageName : Option String
  deriving DecidableEq, Repr

namespace Response

/-- The names of the claims, in their order. -/
def names : List String :=
  ["nonce", "timestampMs", "ctsProfileMatch", "basicIntegrity", "apkPackageName"]

/-- A claim that is false when it is missing, and must not be null. -/
def claim (members : Value.Members) (name : String) : Option Bool :=
  match members.get? name with
  | none => some false
  | some v => v.truth?

/-- The response that a value is. -/
def ofJson? (v : Value) : Option Response := do
  let members ← v.record? names
  let nonce ← members.optional "nonce" Value.text?
  let timestamp ← members.optional "timestampMs" Value.integer?
  let profileMatches ← claim members "ctsProfileMatch"
  let basicIntegrity ← claim members "basicIntegrity"
  let packageName ← members.optional "apkPackageName" Value.text?
  return ⟨nonce, timestamp, profileMatches, basicIntegrity, packageName⟩

/-- The response that the payload of a token is. -/
def ofPayload (payload : Bytes) : Result Response :=
  match Base64.decode Base64.url payload with
  | none => .error (.malformedInput .tokenPayloadText)
  | some b =>
    match (Value.parse? b).bind ofJson? with
    | some response => .ok response
    | none => .error (.malformedInput .tokenPayload)

/-- The nonce is the text of the given bytes. -/
def hasNonce (r : Response) (expected : Bytes) : Bool :=
  (r.nonce.bind fun s => Base64.decode Base64.standard (Bytes.ofText s)) == some expected

end Response

/-- The instant of a timestamp, if it is there and has a date. -/
def instant? (timestamp : Option Int) : Option Instant := do
  let t := Instant.ofMilliseconds (← timestamp)
  if t.Representable then some t else none

/-- Refuses a timestamp that is not within the window around the present. -/
def checkTimestamp (now : Instant) (backward forward : Duration) (timestamp : Option Int) :
    Result Unit :=
  match timestamp, instant? timestamp with
  | some ms, some t =>
    if (now.add? backward.neg).any (t.nanoseconds < ·.nanoseconds) then
      .error (.timestampInvalid (.tooOld ms))
    else if (now.add? forward).any (·.nanoseconds < t.nanoseconds) then
      .error (.timestampInvalid (.inFuture ms))
    else .ok ()
  | _, _ => .error (.timestampInvalid .missing)

end Attestation.SafetyNet
