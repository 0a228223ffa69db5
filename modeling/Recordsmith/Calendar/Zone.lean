import Recordsmith.Calendar.Moment
import Recordsmith.Text.Basic

/-!
# Time zones

A zone tells how far its clocks are from universal time, at every second of the time line.

* `Zone` is any such map, with a list of the offsets that it ever takes;
* `Zone.earliest?` finds the earliest second at which the clocks of a zone read a given time;
* `Zoned` is a moment of the time line seen from a zone;
* `Zone.ofSpans` is the zone whose offset changes at given seconds.
-/

namespace Recordsmith

/-- A time zone. -/
structure Zone where
  name : Text
  /-- The seconds by which the clocks are ahead of universal time. -/
  offsetAt : Int → Int
  /-- The name of the offset. -/
  abbreviationAt : Int → Text
  /-- The offsets that the zone ever takes. -/
  offsets : List Int
  offsetAt_mem : ∀ t, offsetAt t ∈ offsets

namespace Zone

/-- The offsets at which the clocks read the second `reading`. -/
def offsetsFor (z : Zone) (reading : Int) : List Int :=
  z.offsets.filter fun offset => z.offsetAt (reading - offset) = offset

/-- The offset of the earliest second at which the clocks read the second `reading`. -/
def earliest? (z : Zone) (reading : Int) : Option Int := (z.offsetsFor reading).max?

end Zone

/-! ## Moments in a zone -/

/-- A moment of universal time, seen from a zone. -/
structure Zoned where
  utc : Moment
  zone : Zone

namespace Zoned

/-- The seconds by which the clocks of the zone are ahead of universal time. -/
def offset (z : Zoned) : Int := z.zone.offsetAt z.utc.seconds

/-- The name of the offset. -/
def abbreviation (z : Zoned) : Text := z.zone.abbreviationAt z.utc.seconds

/-- What the clocks of the zone read. -/
def reading (z : Zoned) : Moment := z.utc.onClock z.offset

/-- The earliest moment at which the clocks of a zone have this reading, if there is one. -/
def ofReading? (zone : Zone) (reading : Moment) : Option Zoned := do
  let offset ← zone.earliest? reading.seconds
  let utc := reading.onClock (-offset)
  if utc.inRange then some ⟨utc, zone⟩ else none

end Zoned

/-! ## Zones by their changes -/

/-- An offset that holds from a second of the time line on. -/
structure Span where
  start : Int
  offset : Int
  abbreviation : Text

namespace Span

/-- The last of the spans that has started at second `t`, in a list by starting time. -/
def current (first : Span) : List Span → (t : Int) → Span
  | [], _ => first
  | span :: rest, t => if t < span.start then first else current span rest t

theorem current_mem (first : Span) (rest : List Span) (t : Int) :
    current first rest t ∈ first :: rest := by
  induction rest generalizing first with
  | nil => simp [current]
  | cons span rest ih =>
    simp only [current]
    split
    · simp
    · exact List.mem_cons_of_mem _ (ih span)

end Span

/-- The zone that keeps the offset of `first` until the first of the later spans starts. -/
def Zone.ofSpans (name : Text) (first : Span) (later : List Span) : Zone where
  name
  offsetAt t := (Span.current first later t).offset
  abbreviationAt t := (Span.current first later t).abbreviation
  offsets := ((first :: later).map Span.offset).eraseDups
  offsetAt_mem t := by
    rw [List.mem_eraseDups]
    exact List.mem_map_of_mem (Span.current_mem first later t)

/-- The zone of a fixed offset. -/
def Zone.fixed (name abbreviation : Text) (offset : Int) : Zone :=
  .ofSpans name ⟨0, offset, abbreviation⟩ []

end Recordsmith
