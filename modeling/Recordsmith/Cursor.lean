import Recordsmith.Calendar.Unit

/-!
# The date cursor

A cursor that moves forward along the time line with every date that it hands out. Every record of a
run shares it.

* `Cursor` is not there before its first use, which puts both its ends at the present;
* `Cursor.advance` hands out the next date. A candidate is taken as the new start before the first
  date was handed out, and later only if it lies ahead. A start that is not ahead of the end moves
  on by a step.
-/

namespace Recordsmith

/-- The ends of the cursor, and whether a date was handed out. -/
structure CursorState where
  start : Zoned
  finish : Zoned
  emitted : Bool

/-- The cursor; it has no state before its first use. -/
abbrev Cursor := Option CursorState

/-- A request for the next date. -/
structure CursorRequest where
  /-- The present. -/
  now : Zoned
  /-- Where the request would like to start. -/
  candidate : Option Zoned
  unit : TimeUnit
  step : Int

namespace Cursor

/-- Where a request starts: at its candidate, if that is taken, or else where the cursor is, seen
    from the zone of the request. -/
def startFor (s : CursorState) (r : CursorRequest) : Zoned :=
  match r.candidate with
  | some candidate => if !s.emitted || s.start.utc < candidate.utc then candidate
    else { s.start with zone := r.now.zone }
  | none => { s.start with zone := r.now.zone }

/-- Hands out the next date. A request that fails leaves the state as it was, or as the first use
    makes it. -/
def advance (c : Cursor) (r : CursorRequest) : Except StepFault Zoned × Cursor :=
  let s := c.getD ⟨r.now, r.now, false⟩
  let start := startFor s r
  let moved :=
    if s.finish.utc < start.utc then .ok start else r.unit.shift start r.step
  match moved with
  | .ok z => (.ok z, some ⟨z, z, true⟩)
  | .error fault => (.error fault, some s)

end Cursor
end Recordsmith
