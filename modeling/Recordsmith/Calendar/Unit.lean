import Recordsmith.Calendar.Zone
import Recordsmith.Failure

/-!
# Steps of time

* `TimeUnit` are the units in which time moves, `TimeUnit.named?` reads their names;
* `TimeUnit.shift` moves a zoned moment. Units below the day move along the time line. Days, months
  and years move what the clocks read: a reading that the clocks skip is taken with the offset at
  the start of the step, and a reading that occurs twice is the earlier one.
-/

namespace Recordsmith

/-- A unit of time. -/
inductive TimeUnit where
  | millisecond
  | second
  | minute
  | hour
  | day
  | month
  | year
deriving DecidableEq, Repr

namespace TimeUnit

/-- The unit of a name in the singular or plural, in small letters. -/
def ofName? (name : Text) : Option TimeUnit :=
  ([("millisecond", millisecond), ("second", second), ("minute", minute), ("hour", hour),
    ("day", day), ("month", month), ("year", year)].find? fun (singular, _) =>
      name = singular.toList ∨ name = singular.toList ++ ['s']).map (·.2)

/-- Reads the name of a unit, in any case and with blanks around it. -/
def read (t : Text) : Except Failure TimeUnit :=
  let name := (Text.trim t).map Text.asciiLower
  match ofName? name with
  | some unit => .ok unit
  | none => .error (.argument "datetime".toList (.unknownUnit name))

end TimeUnit

/-! ## Moving -/

/-- Why a step cannot be made: it is too long for a duration or ends outside the years that
    calculations may reach, or the clocks at its start already read a time outside them. -/
inductive StepFault where
  | outOfRange
  | readingOutOfRange
deriving DecidableEq, Repr

/-- A moment, provided that calculations may reach it. -/
def Moment.checked (m : Moment) : Except StepFault Moment :=
  if m.inRange then .ok m else .error .outOfRange

namespace Zoned

/-- What the clocks read, provided that calculations may reach it. -/
def checkedReading (z : Zoned) : Except StepFault Moment :=
  if z.reading.inRange then .ok z.reading else .error .readingOutOfRange

/-- Places a reading of the clocks in the zone of `origin`. -/
def resolve (origin : Zoned) (reading : Moment) : Except StepFault Zoned :=
  match ofReading? origin.zone reading with
  | some z => .ok z
  | none => do
    let utc ← (reading.add (-origin.offset * nanosPerSecond)).checked
    .ok ⟨utc, origin.zone⟩

/-- The most nanoseconds of a duration, either way: their milliseconds are a signed 64-bit word. -/
def maxDuration : Nat := 9223372036854775807000000

/-- Moves along the time line by a duration in nanoseconds. -/
def addNanos (z : Zoned) (δ : Int) : Except StepFault Zoned :=
  if maxDuration < δ.natAbs then .error .outOfRange
  else do
    let utc ← (z.utc.add δ).checked
    .ok { z with utc }

/-- Moves the reading of the clocks by days. -/
def addDays (z : Zoned) (amount : Int) : Except StepFault Zoned := do
  let reading ← z.checkedReading
  let moved ← (reading.onClock (amount * secondsPerDay)).checked
  z.resolve moved

/-- The most months of a step, either way. More of them reach no year that calculations may reach,
    and such a step does not look at the clocks. -/
def maxMonths : Nat := 4294967295

/-- Moves the reading of the clocks by months, forward or back by the size of the amount; a day
    after the end of a month becomes its last. -/
def addMonths (z : Zoned) (amount : Int) : Except StepFault Zoned :=
  let months := amount.natAbs
  if maxMonths < months then .error .outOfRange
  else do
    let reading ← z.checkedReading
    let moved :=
      if 0 ≤ amount then reading.date.monthsLater months else reading.date.monthsEarlier months
    match moved with
    | some date => z.resolve { reading with date }
    | none => .error .outOfRange

end Zoned

/-- The nanoseconds of a unit below the day. -/
def TimeUnit.nanos : TimeUnit → Int
  | .millisecond => 1000000
  | .second => 1000000000
  | .minute => 60000000000
  | .hour => 3600000000000
  | .day | .month | .year => 0

/-- Moves a zoned moment by an amount of units. A year is twelve months, as long as their number
    fits a 64-bit word. -/
def TimeUnit.shift (unit : TimeUnit) (z : Zoned) (amount : Int) : Except StepFault Zoned :=
  match unit with
  | .millisecond | .second | .minute | .hour => z.addNanos (amount * unit.nanos)
  | .day => z.addDays amount
  | .month => z.addMonths amount
  | .year =>
    match IntegerRange.int64.checked (12 * amount) with
    | some months => z.addMonths months
    | none => .error .outOfRange

end Recordsmith
