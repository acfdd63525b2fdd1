import Attestation.Bytes

/-!
# Durations

A duration is a number of nanoseconds. What a configuration can hold ends at 2 ^ 63 - 1 milliseconds
to either side; `Duration.ofSeconds?` makes a duration of whole seconds within these bounds.
-/

namespace Attestation

/-- A span of time, which may be negative. -/
structure Duration where
  nanoseconds : Int
  deriving DecidableEq, Repr

namespace Duration

/-- The nanoseconds of a second. -/
def nanosecondsPerSecond : Int := 1000000000

/-- A number of whole seconds. -/
def seconds (n : Int) : Duration :=
  ⟨n * nanosecondsPerSecond⟩

/-- A number of whole milliseconds. -/
def milliseconds (n : Int) : Duration :=
  ⟨n * 1000000⟩

/-- The longest duration. -/
def longest : Duration := milliseconds (2 ^ 63 - 1)

/-- The longest duration backwards. -/
def longestBackwards : Duration := milliseconds (-(2 ^ 63 - 1))

/-- A number of whole seconds, if that is within the bounds. -/
def ofSeconds? (n : Int) : Option Duration :=
  let d := seconds n
  if longestBackwards.nanoseconds ≤ d.nanoseconds ∧ d.nanoseconds ≤ longest.nanoseconds then some d
  else none

/-- The whole seconds of a duration, without the rest. -/
def wholeSeconds (d : Duration) : Int :=
  d.nanoseconds.tdiv nanosecondsPerSecond

/-- The same duration in the other direction. -/
def neg (d : Duration) : Duration :=
  ⟨-d.nanoseconds⟩

end Duration

end Attestation
