import Recordsmith.Pattern.Render
import Recordsmith.Pattern.Parse
import Recordsmith.Calendar.Places
import Recordsmith.Random.Draw

/-!
# Random dates

* `Moment.sample` draws a moment between two bounds, one field of the calendar after the other. A
  field is held to a bound only while all larger fields lie on that bound, so that every date is a
  date of the calendar and no moment outside the bounds is drawn;
* `Pattern.range` resolves the bounds, which are texts in the pattern's form;
* `Pattern.sample` draws a moment and writes it.
-/

namespace Recordsmith

variable {σ : Type} [WordSource σ]

/-! ## Fields -/

/-- The sampler's bounds for the next field: those of the field itself, unless all larger fields lie
    on the lower or on the upper bound. -/
structure Edges where
  onMin : Bool
  onMax : Bool

namespace Edges

/-- Draws a field between `low` and `high`, or between the bounds whose edges are kept, and tells
    which edges are kept beyond it. -/
def draw (e : Edges) (min max low high : Nat) : StateM σ (Nat × Edges) := do
  let low := if e.onMin then min else low
  let high := if e.onMax then max else high
  let value ← Draw.natBetween low (Nat.max high low)
  pure (value, ⟨e.onMin && value == min, e.onMax && value == max⟩)

end Edges

/-- Draws a moment from `min` to `max` without fractions of a second. -/
def Moment.sample (min max : Moment) : StateM σ (Except Failure Moment) := do
  if max < min then return .error (.date .reversedDates)
  let year ← Draw.between32 min.date.year max.date.year
  let edges : Edges := ⟨year == min.date.year, year == max.date.year⟩
  let (month, edges) ← edges.draw min.date.month max.date.month 1 12
  let (day, edges) ← edges.draw min.date.day max.date.day 1 (daysInMonth year month)
  let (hour, edges) ← edges.draw min.hour max.hour 0 23
  let (minute, edges) ← edges.draw min.minute max.minute 0 59
  let (second, _) ← edges.draw min.secondOfMinute max.secondOfMinute 0 59
  match (Date.ofYmdInRange? year month day).bind fun date =>
      Moment.ofClock? date hour minute second 0 with
  | some m => return .ok m
  | none => return .error (.date (.sampledInvalidDate year month day hour minute second))

/-! ## Bounds -/

namespace Pattern

/-- The bounds of the patterns that have some of their own. -/
def defaultRange? (p : Pattern) : Option (Text × Text) :=
  if p.source = iso then
    some ("1970-01-01T00:00:00.000Z".toList, "2018-12-31T23:59:59.000Z".toList)
  else if p.source = dashedDate then some ("2018-05-01".toList, "2018-12-31".toList)
  else if p.source = dashedDateTime then
    some ("1970-01-01 00:00:00".toList, "2018-12-31 23:59:59".toList)
  else none

/-- Resolves bounds. A single one is the lower bound, and the upper one is then the present second;
    any number but one and two falls back to the pattern's own bounds. -/
def range (p : Pattern) (now : Moment) : (bounds : List Text) → Except Failure (Moment × Moment)
  | [min] => do pure (← p.parse min, now.truncateToSecond)
  | [min, max] => do
    let min ← p.parse min
    let max ← p.parse max
    pure (min, max)
  | _ =>
    match p.defaultRange? with
    | none => .error (.date (.noDefaultRange p.source))
    | some (min, max) => do
      let min ← p.parse min
      let max ← p.parse max
      pure (min, max)

/-- Draws a moment within bounds and writes it, in universal time. -/
def sample (p : Pattern) (now : Moment) (bounds : List Text) : StateM σ (Except Failure Text) := do
  match p.range now bounds with
  | .error failure => return .error failure
  | .ok (min, max) =>
    return (← Moment.sample min max).map fun m => p.render ⟨m, .utc⟩

end Pattern
end Recordsmith
