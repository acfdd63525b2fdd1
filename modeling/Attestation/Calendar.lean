import Attestation.Duration

/-!
# Dates of the proleptic Gregorian calendar

Instants are counted in nanoseconds from the beginning of 1970 in universal time; a timestamp of a
response is counted in milliseconds. `Calendar.text` writes a timestamp as a date and a time of day:
years from 0 to 9999 have four digits, other years a sign and at least four, and milliseconds are
written only when there are some. Instants outside `Instant.Representable` have no date.
-/

namespace Attestation

/-! ## Numerals of a least width -/

namespace Numeral

/-- A numeral with zeros before it up to the given width. -/
def padded (width : Nat) (digits : List Char) : String :=
  String.ofList (List.replicate (width - digits.length) '0' ++ digits)

/-- The decimal numeral of at least `width` digits. -/
def decimal (width n : Nat) : String :=
  padded width (Nat.toDigits 10 n)

/-- The lower-case hexadecimal numeral of at least `width` digits. -/
def hexadecimal (width n : Nat) : String :=
  padded width (Nat.toDigits 16 n)

end Numeral

/-! ## Dates -/

/-- A day of the calendar. -/
structure Date where
  year : Int
  month : Nat
  day : Nat
  deriving DecidableEq, Repr

namespace Date

/-- The date that lies `days` days after 1970-01-01. The count starts afresh at 0000-03-01, so that
the leap day is the last day of its year, and cycles every 400 years, which are 146097 days. -/
def ofEpochDay (days : Int) : Date :=
  let shifted := days + 719468
  let era := shifted / 146097
  let dayOfEra := shifted % 146097
  let yearOfEra := (dayOfEra - dayOfEra / 1460 + dayOfEra / 36524 - dayOfEra / 146096) / 365
  let dayOfYear := dayOfEra - (365 * yearOfEra + yearOfEra / 4 - yearOfEra / 100)
  let monthFromMarch := (5 * dayOfYear + 2) / 153
  let day := dayOfYear - (153 * monthFromMarch + 2) / 5 + 1
  let month := if monthFromMarch < 10 then monthFromMarch + 3 else monthFromMarch - 9
  let year := yearOfEra + era * 400 + (if month ≤ 2 then 1 else 0)
  ⟨year, month.toNat, day.toNat⟩

/-- A year of four digits, or with its sign and at least four digits. -/
def yearText (year : Int) : String :=
  if year < 0 then "-" ++ Numeral.decimal 4 year.natAbs
  else if year ≤ 9999 then Numeral.decimal 4 year.toNat
  else "+" ++ Numeral.decimal 4 year.toNat

/-- Year, month and day. -/
def text (d : Date) : String :=
  s!"{yearText d.year}-{Numeral.decimal 2 d.month}-{Numeral.decimal 2 d.day}"

end Date

namespace Calendar

/-- The milliseconds of a day. -/
def dayMilliseconds : Int := 86400000

/-- The date and time of day, in universal time, that lies the given number of milliseconds after
the beginning of 1970. -/
def text (milliseconds : Int) : String :=
  let date := Date.ofEpochDay (milliseconds / dayMilliseconds)
  let ofDay := (milliseconds % dayMilliseconds).toNat
  let two := Numeral.decimal 2
  let time := s!"{two (ofDay / 3600000)}:{two (ofDay / 60000 % 60)}:{two (ofDay / 1000 % 60)}"
  let rest := ofDay % 1000
  let fraction := if rest = 0 then "" else "." ++ Numeral.decimal 3 rest
  s!"{date.text} {time}{fraction} UTC"

end Calendar

/-- A point in time. -/
structure Instant where
  /-- The nanoseconds from the beginning of 1970 in universal time. -/
  nanoseconds : Int
  deriving DecidableEq, Repr

namespace Instant

/-- The first instant that has a date: the beginning of the year -262143. -/
def earliest : Int := -8334601228800000000000

/-- The last instant that has a date: the end of the year 262142. -/
def latest : Int := 8210266876799999999999

/-- The instant has a date. -/
def Representable (t : Instant) : Prop :=
  earliest ≤ t.nanoseconds ∧ t.nanoseconds ≤ latest

instance (t : Instant) : Decidable t.Representable :=
  inferInstanceAs (Decidable (_ ∧ _))

/-- The instant of a timestamp in milliseconds. -/
def ofMilliseconds (ms : Int) : Instant :=
  ⟨ms * 1000000⟩

/-- The instant a duration later, if it has a date. -/
def add? (t : Instant) (d : Duration) : Option Instant :=
  let later : Instant := ⟨t.nanoseconds + d.nanoseconds⟩
  if later.Representable then some later else none

end Instant

end Attestation
