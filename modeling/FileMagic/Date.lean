import FileMagic.Numeral
import FileMagic.Text.Number

/-! Dates of the proleptic Gregorian calendar. Days are counted from the first of January
1970; the civil date of a day is found by way of years that start in March, so that the leap
day is the last of its year. -/

namespace FileMagic

structure CivilDate where
  year : Int
  month : Nat
  day : Nat
deriving DecidableEq, Repr

namespace CivilDate

/-- Years of 400 repeat: they have this many days. -/
def eraDays : Int := 146097

/-- The days from the first of March of year 0 to the first day of 1970. -/
def epochShift : Int := 719468

/-- The date of a day. The year within an era drops a day for each leap day before it; months
from March on follow each other in steps of 153 days to five. -/
def ofDays (days : Int) : CivilDate :=
  let shifted := days + epochShift
  let era := shifted / eraDays
  let dayOfEra := (shifted % eraDays).toNat
  let yearOfEra := (dayOfEra - dayOfEra / 1460 + dayOfEra / 36524 - dayOfEra / 146096) / 365
  let dayOfYear := dayOfEra - (365 * yearOfEra + yearOfEra / 4 - yearOfEra / 100)
  let monthFromMarch := (5 * dayOfYear + 2) / 153
  let day := dayOfYear - (153 * monthFromMarch + 2) / 5 + 1
  let month := if monthFromMarch < 10 then monthFromMarch + 3 else monthFromMarch - 9
  let year := era * 400 + yearOfEra
  ⟨if month ≤ 2 then year + 1 else year, month, day⟩

/-- Every fourth year, except centuries that are not multiples of 400. -/
def isLeap (year : Int) : Bool := year % 4 = 0 && (year % 100 ≠ 0 || year % 400 = 0)

/-- The days of a year before its months, which are counted from one. -/
def daysBeforeMonth (leap : Bool) (month : Nat) : Nat :=
  ([0, 31, 59, 90, 120, 151, 181, 212, 243, 273, 304, 334].getD (month - 1) 0) +
    (if leap && 2 < month then 1 else 0)

/-- The days from 1970 to the start of a year. -/
def daysBeforeYear (year : Int) : Int :=
  let y := year - 1
  y * 365 + y / 4 - y / 100 + y / 400 - 719162

def toDays (d : CivilDate) : Int :=
  daysBeforeYear d.year + daysBeforeMonth (isLeap d.year) d.month + d.day - 1

end CivilDate

def weekdayNames : List Text :=
  ["Sun", "Mon", "Tue", "Wed", "Thu", "Fri", "Sat"].map String.toList

def monthNames : List Text :=
  ["Jan", "Feb", "Mar", "Apr", "May", "Jun", "Jul", "Aug", "Sep", "Oct", "Nov", "Dec"].map
    String.toList

/-- The first day of 1970 was a Thursday. -/
def weekday (days : Int) : Nat := ((days + 4) % 7).toNat

namespace Instant

def secondsPerDay : Int := 86400

/-- The first second of year 1 and the last one of year 9999. -/
def first : Int := -62135596800
def last : Int := 253402300799

def twoDigits (n : Int) : Text := Text.padStart 2 '0' (Text.ofNat n.toNat)

/-- An instant in seconds from the start of 1970, as a date of universal time. Instants beyond
the years 1 to 9999 are written as numbers, and so are, in local time, those of the first day
of year 1, to which no offset can be applied. -/
def text (seconds : Int) (isLocal : Bool) : Except Fault Text :=
  let earliest := if isLocal then first + secondsPerDay else first
  if seconds < earliest ∨ last < seconds then Numeral.write seconds
  else
    let days := seconds / secondsPerDay
    let rest := seconds % secondsPerDay
    let date := CivilDate.ofDays days
    .ok (weekdayNames.getD (weekday days) [] ++ [' '] ++ monthNames.getD (date.month - 1) [] ++
      [' '] ++ Text.padStart 2 ' ' (Text.ofNat date.day) ++ [' '] ++
      twoDigits (rest / 3600) ++ [':'] ++ twoDigits (rest / 60 % 60) ++ [':'] ++
      twoDigits (rest % 60) ++ " UTC ".toList ++ Text.ofInt date.year)

/-- Ticks of 100 ns from the start of 1601, as seconds from the start of 1970. -/
def ofFileTime (ticks : Int) : Int := ticks / 10000000 - 11644473600

end Instant
end FileMagic
