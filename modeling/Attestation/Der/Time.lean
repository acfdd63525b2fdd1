import Attestation.Reader

/-!
# Times of the distinguished encoding

Two digits each for month, day, hour, minute and, where they are given, second, after a year of two
or four digits and before a time zone; after a year of four digits there may be a fraction of a
second too, and the zone may be missing. Reading checks the greatest values of the parts;
`Time.InCalendar` says that there is such a day.
-/

namespace Attestation.Der

/-- A date and a time of day. -/
structure Time where
  year : Nat
  month : Nat
  day : Nat
  hour : Nat
  minute : Nat
  second : Nat
  deriving DecidableEq, Repr

namespace Time

/-- The digit that a byte is in ASCII. -/
def digit? (d : UInt8) : Option Nat :=
  if 0x30 ≤ d ∧ d ≤ 0x39 then some (d.toNat - 0x30) else none

/-- Takes a number of two digits. -/
def readTwo : Reader Nat
  | c :: d :: rest => do
    let c ← digit? c
    let d ← digit? d
    return (10 * c + d, rest)
  | _ => none

/-- Takes a year of four digits. -/
def readFour : Reader Nat := fun b => do
  let (high, b) ← readTwo b
  let (low, b) ← readTwo b
  return (100 * high + low, b)

/-- The letter of universal time. -/
def zulu : UInt8 := 0x5a

/-- The bytes are a time zone: the letter of universal time, or a sign, hours and minutes. -/
def isZone : Bytes → Bool
  | [d] => d == zulu
  | sign :: offset => (sign == 0x2b || sign == 0x2d) && offset.length == 4 &&
    offset.all fun d => (digit? d).isSome
  | [] => false

/-- The bytes after a fraction of a second, which starts with a point or a comma and has at most
three digits, one at least unless a zone follows; without the mark there is no fraction. -/
def skipFraction : Bytes → Option Bytes
  | mark :: b =>
    if mark = 0x2e ∨ mark = 0x2c then
      let digits := b.takeWhile fun d => (digit? d).isSome
      let rest := b.drop digits.length
      if digits.length ≤ 3 ∧ b ≠ [] then some rest else none
    else some (mark :: b)
  | [] => some []

/-- The bytes are empty, or a fraction of a second, or a time zone, or both. -/
def isFractionAndZone (b : Bytes) : Bool :=
  (skipFraction b).any fun zone => zone.isEmpty || isZone zone

/-- Takes the seconds, unless only one byte is left. -/
def readSecond : Reader Nat
  | [d] => some (0, [d])
  | b => readTwo b

/-- Every part is at most its greatest value. -/
def WithinLimits (t : Time) : Prop :=
  t.month ≤ 12 ∧ t.day ≤ 31 ∧ t.hour ≤ 23 ∧ t.minute ≤ 59 ∧ t.second ≤ 59

instance (t : Time) : Decidable t.WithinLimits :=
  inferInstanceAs (Decidable (_ ∧ _ ∧ _ ∧ _ ∧ _))

/-- The time that the bytes write, with a year that `readYear` takes and an end that `isEnd`
accepts. -/
def ofBytes? (readYear : Reader Nat) (isEnd : Bytes → Bool) (b : Bytes) : Option Time := do
  let (year, b) ← readYear b
  let (month, b) ← readTwo b
  let (day, b) ← readTwo b
  let (hour, b) ← readTwo b
  let (minute, b) ← readTwo b
  let (second, b) ← readSecond b
  let t : Time := ⟨year, month, day, hour, minute, second⟩
  if isEnd b ∧ t.WithinLimits then some t else none

/-- The time with a year of two digits that the bytes write. -/
def ofUtc? (b : Bytes) : Option Time :=
  ofBytes? readTwo isZone b

/-- The time with a year of four digits that the bytes write. -/
def ofGeneralized? (b : Bytes) : Option Time :=
  ofBytes? readFour isFractionAndZone b

/-! ## The calendar -/

/-- A year with a leap day. -/
def IsLeap (year : Nat) : Prop :=
  year % 4 = 0 ∧ (year % 100 ≠ 0 ∨ year % 400 = 0)

instance (year : Nat) : Decidable (IsLeap year) :=
  inferInstanceAs (Decidable (_ ∧ (_ ∨ _)))

/-- The days of a month; a number that is none has no days. -/
def daysOfMonth (year : Nat) : (month : Nat) → Nat
  | 1 | 3 | 5 | 7 | 8 | 10 | 12 => 31
  | 4 | 6 | 9 | 11 => 30
  | 2 => if IsLeap year then 29 else 28
  | _ => 0

/-- The calendar has the day. A year of two digits is a leap year in every century that such years
stand for, or in none. -/
def InCalendar (t : Time) : Prop :=
  1 ≤ t.day ∧ t.day ≤ daysOfMonth t.year t.month

instance (t : Time) : Decidable t.InCalendar :=
  inferInstanceAs (Decidable (_ ∧ _))

end Time

end Attestation.Der
