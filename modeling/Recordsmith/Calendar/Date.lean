/-!
# Dates

Dates of the Gregorian calendar, extended to all years.

* `Date` is a year, a month and a day of that month;
* `Date.toDays` numbers the dates, with 0 for the first of January 1970, and `Date.ofDays` is the
  date of a number;
* `Date.ordinal` is the number of a date within its year, and `Date.ofOrdinal?` its inverse;
* `Date.inRange` are the dates that calculations may reach.
-/

namespace Recordsmith

/-! ## Months -/

/-- Every fourth year is a leap year, except the centuries that 400 does not divide. -/
def isLeapYear (year : Int) : Bool :=
  (year % 4 == 0 && year % 100 != 0) || year % 400 == 0

/-- The number of days of a month; no days outside the twelve months. -/
def daysInMonth (year : Int) : (month : Nat) → Nat
  | 1 | 3 | 5 | 7 | 8 | 10 | 12 => 31
  | 4 | 6 | 9 | 11 => 30
  | 2 => if isLeapYear year then 29 else 28
  | _ => 0

/-- A date. -/
structure Date where
  year : Int
  month : Nat
  day : Nat
  month_pos : 1 ≤ month
  month_le : month ≤ 12
  day_pos : 1 ≤ day
  day_le : day ≤ daysInMonth year month
deriving DecidableEq

namespace Date

/-- The first of January 1970. -/
def epoch : Date := ⟨1970, 1, 1, by decide, by decide, by decide, by decide⟩

/-- The date of these numbers, if there is one. -/
def ofYmd? (year : Int) (month day : Nat) : Option Date :=
  if h : (1 ≤ month ∧ month ≤ 12) ∧ 1 ≤ day ∧ day ≤ daysInMonth year month then
    some ⟨year, month, day, h.1.1, h.1.2, h.2.1, h.2.2⟩
  else none

/-! ## The number of a date in its year -/

/-- The days of the year before a month. -/
def daysBeforeMonth (year : Int) : (month : Nat) → Nat
  | 0 | 1 => 0
  | month + 2 => daysBeforeMonth year (month + 1) + daysInMonth year (month + 1)

/-- The number of the date in its year, from 1. -/
def ordinal (d : Date) : Nat := daysBeforeMonth d.year d.month + d.day

/-- Looks for the date of a year in `fuel` months, the first of which is `month`; `day` counts from
    the start of that month. -/
def locate? (year : Int) : (fuel month day : Nat) → Option Date
  | 0, _, _ => none
  | fuel + 1, month, day =>
    if day ≤ daysInMonth year month then ofYmd? year month day
    else locate? year fuel (month + 1) (day - daysInMonth year month)

/-- The date with a number in a year, if the year is long enough. -/
def ofOrdinal? (year : Int) (ordinal : Nat) : Option Date := locate? year 12 1 ordinal

/-! ## The number of a date -/

/-- The days from the first of January of the year 1 to the first of January of a year. -/
def daysBeforeYear (year : Int) : Int :=
  365 * (year - 1) + (year - 1) / 4 - (year - 1) / 100 + (year - 1) / 400

/-- The days from the first of January of the year 1 to the first of January 1970. -/
def daysBeforeEpoch : Int := 719162

/-- The number of a date, with 0 for the first of January 1970. -/
def toDays (d : Date) : Int := daysBeforeYear d.year + d.ordinal - 1 - daysBeforeEpoch

/-- The year in which the day lies that follows the first of January of the year 1 by `n` days. -/
def yearOfDay (n : Int) : Int :=
  let guess := n * 400 / 146097 + 1
  if n < daysBeforeYear guess then guess - 1
  else if daysBeforeYear (guess + 1) ≤ n then guess + 1
  else guess

/-- The date of a number. -/
def ofDays (n : Int) : Date :=
  let day := n + daysBeforeEpoch
  let year := yearOfDay day
  (ofOrdinal? year (day - daysBeforeYear year + 1).toNat).getD epoch

/-- The day of the week, with 0 for Monday. -/
def weekday (d : Date) : Nat := ((d.toDays + 3) % 7).toNat

/-! ## Range -/

/-- The first year that calculations may reach. -/
def minYear : Int := -262143

/-- The last year that calculations may reach. -/
def maxYear : Int := 262142

/-- The date lies in a year that calculations may reach. -/
def inRange (d : Date) : Bool := minYear ≤ d.year && d.year ≤ maxYear

/-- The date of these numbers, if there is one that calculations may reach. -/
def ofYmdInRange? (year : Int) (month day : Nat) : Option Date :=
  (ofYmd? year month day).filter inRange

/-- The date moved by months; a day after the end of the new month becomes its last day. -/
def addMonths (d : Date) (amount : Int) : Option Date :=
  let months := 12 * d.year + (d.month - 1 : Nat) + amount
  let year := months / 12
  let month := (months % 12).toNat + 1
  ofYmdInRange? year month (min d.day (daysInMonth year month))

/-- The most months that a date is moved by, either way. -/
def maxMonths : Nat := 2147483647

/-- The date so many months later. -/
def monthsLater (d : Date) (months : Nat) : Option Date :=
  if months ≤ maxMonths then d.addMonths months else none

/-- The date so many months earlier. -/
def monthsEarlier (d : Date) (months : Nat) : Option Date :=
  if months ≤ maxMonths then d.addMonths (-months) else none

end Date
end Recordsmith
