import Recordsmith.Calendar.Date

/-!
# Moments

A date with a time of day, to the nanosecond.

* The nanoseconds of a leap second run on from 1 000 000 000, so that second 60 of a minute is
  second 59 with that many nanoseconds or more;
* `Moment.seconds` is the position of the second on the time line, which leap seconds share with the
  second before them; moments are ordered by it and by the nanoseconds;
* `Moment.add` moves a moment by nanoseconds, `Moment.onClock` by whole seconds of the clock.
-/

namespace Recordsmith

/-- The nanoseconds of a second. -/
def nanosPerSecond : Nat := 1000000000

/-- The seconds of a day. -/
def secondsPerDay : Nat := 86400

/-- A date and a time of day: the second of the day, and the nanoseconds of that second and of a
    leap second after it. -/
structure Moment where
  date : Date
  second : Nat
  nano : Nat
  second_lt : second < 86400
  nano_lt : nano < 2000000000
deriving DecidableEq

namespace Moment

/-- A date at midnight. -/
def midnight (date : Date) : Moment := ⟨date, 0, 0, by decide, by decide⟩

/-- The moment of a date at these numbers of a clock, if there is one. -/
def ofClock? (date : Date) (hour minute second nano : Nat) : Option Moment :=
  if h : hour < 24 ∧ minute < 60 ∧ second < 60 ∧ nano < 2000000000 ∧
      (nano < 1000000000 ∨ second = 59) then
    some ⟨date, hour * 3600 + minute * 60 + second, nano, by omega, h.2.2.2.1⟩
  else none

/-- The hour of the day. -/
def hour (m : Moment) : Nat := m.second / 3600

/-- The minute of the hour. -/
def minute (m : Moment) : Nat := m.second / 60 % 60

/-- The second of the minute, 59 in a leap second. -/
def secondOfMinute (m : Moment) : Nat := m.second % 60

/-- The moment lies in a leap second. -/
def inLeapSecond (m : Moment) : Bool := nanosPerSecond ≤ m.nano

/-! ## The time line -/

/-- The seconds from midnight of the first of January 1970. -/
def seconds (m : Moment) : Int := m.date.toDays * secondsPerDay + m.second

/-- The moment at a second of the time line with these nanoseconds. -/
def ofSeconds (seconds : Int) (nano : Nat) (h : nano < 2000000000) : Moment :=
  ⟨Date.ofDays (seconds / 86400), (seconds % 86400).toNat, nano, by omega, h⟩

instance : LT Moment :=
  ⟨fun a b => a.seconds < b.seconds ∨ (a.seconds = b.seconds ∧ a.nano < b.nano)⟩

instance (a b : Moment) : Decidable (a < b) :=
  inferInstanceAs (Decidable (_ ∨ _))

instance : LE Moment := ⟨fun a b => ¬ b < a⟩

instance (a b : Moment) : Decidable (a ≤ b) := inferInstanceAs (Decidable (¬ _))

/-- The moment lies in a year that calculations may reach. -/
def inRange (m : Moment) : Bool := m.date.inRange

/-- The moment whose clock reads `δ` seconds later; a leap second stays one. -/
def onClock (m : Moment) (δ : Int) : Moment := ofSeconds (m.seconds + δ) m.nano m.nano_lt

/-- The moment `δ` nanoseconds after the point `nano` nanoseconds into a second of the time line. -/
def after (seconds nano δ : Int) : Moment :=
  let total := nano + δ
  ofSeconds (seconds + total / 1000000000) (total % 1000000000).toNat (by omega)

/-- The moment `δ` nanoseconds later. From within a leap second, a move that stays within it keeps
    the second; a move forward out of it counts from the second before the leap second, and a move
    back by a second or more from the second after it. -/
def add (m : Moment) (δ : Int) : Moment :=
  let whole := δ.tdiv 1000000000
  let part := δ.tmod 1000000000
  if m.nano < 1000000000 then after m.seconds m.nano δ
  else if 0 < whole ∨ (0 < part ∧ 2000000000 ≤ m.nano + part) then
    after m.seconds (m.nano - 1000000000) δ
  else if whole < 0 then after (m.seconds + 1) (m.nano - 1000000000) δ
  else ⟨m.date, m.second, (m.nano + part).toNat % 2000000000, m.second_lt,
    Nat.mod_lt _ (by decide)⟩

/-- The moment at the start of its second; a leap second becomes the start of second 59. -/
def truncateToSecond (m : Moment) : Moment := { m with nano := 0, nano_lt := by decide }

end Moment
end Recordsmith
