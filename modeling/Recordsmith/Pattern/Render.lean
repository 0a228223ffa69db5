import Recordsmith.Pattern.Format
import Recordsmith.Calendar.Zone

/-!
# Writing dates

* `Field.render` writes one field of a zoned moment;
* `Pattern.render` writes the items of a pattern one after the other.

Years from 0 to 9999 have four digits; other years have a sign and at least four digits.
-/

namespace Recordsmith

/-- A number with the fill of its field. -/
def Fill.render (fill : Fill) (width n : Nat) : Text :=
  match fill with
  | .none => Text.ofNat n
  | .zeros => Text.ofNatPadded width n

/-- A year. -/
def renderYear (year : Int) : Text :=
  if 0 ≤ year ∧ year < 10000 then Text.ofNatPadded 4 year.toNat
  else (if year < 0 then '-' else '+') :: Text.ofNatPadded 4 year.natAbs

/-- An offset in hours and minutes, rounded to the nearest minute. -/
def renderOffset (separator : Text) (offset : Int) : Text :=
  let minutes := (offset.natAbs + 30) / 60
  (if offset < 0 then '-' else '+') ::
    (Text.ofNatPadded 2 (minutes / 60) ++ separator ++ Text.ofNatPadded 2 (minutes % 60))

/-- The hour on a clock of twelve hours. -/
def hourOfHalf (hour : Nat) : Nat := if hour % 12 = 0 then 12 else hour % 12

/-- One field of a zoned moment. The second of a leap second is 60. -/
def Field.render (z : Zoned) (f : Field) : Text :=
  let m := z.reading
  match f with
  | .year => renderYear m.date.year
  | .yearOfCentury => Text.ofNatPadded 2 (m.date.year % 100).toNat
  | .month fill => fill.render 2 m.date.month
  | .monthAbbreviated => (nameAt monthNames (m.date.month - 1)).take 3
  | .monthName => nameAt monthNames (m.date.month - 1)
  | .day fill => fill.render 2 m.date.day
  | .dayOfYear => Text.ofNatPadded 3 m.date.ordinal
  | .hour fill => fill.render 2 m.hour
  | .hourOfHalf fill => fill.render 2 (Recordsmith.hourOfHalf m.hour)
  | .minute fill => fill.render 2 m.minute
  | .second fill => fill.render 2 (m.secondOfMinute + m.nano / nanosPerSecond)
  | .milliseconds => Text.ofNatPadded 3 (m.nano % nanosPerSecond / 1000000)
  | .microseconds => Text.ofNatPadded 6 (m.nano % nanosPerSecond / 1000)
  | .nanoseconds => Text.ofNatPadded 9 (m.nano % nanosPerSecond)
  | .half => if m.hour < 12 then ['A', 'M'] else ['P', 'M']
  | .weekdayAbbreviated => (nameAt weekdayNames m.date.weekday).take 3
  | .weekdayName => nameAt weekdayNames m.date.weekday
  | .offset => renderOffset [] z.offset
  | .offsetWithColon => renderOffset [':'] z.offset
  | .zoneAbbreviation => z.abbreviation

/-- One item of a pattern. -/
def Item.render (z : Zoned) : Item → Text
  | .field f => f.render z
  | .literal t => t
  | .percent => ['%']
  | .space t => t
  | .invalid => []

/-- Writes a zoned moment by a pattern. -/
def Pattern.render (p : Pattern) (z : Zoned) : Text := p.items.flatMap (·.render z)

end Recordsmith
