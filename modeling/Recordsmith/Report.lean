import Recordsmith.Number.Power
import Recordsmith.Text.Basic

/-!
# Reports

What a run has done, in counts.

* `Tally` counts by name, in the order of the names;
* `Report` holds the counts of a run, `Report.merge` adds those of another one.

The number of requested records must fit a 64-bit word: a sum that does not is none. The other counts
go up by one at a time, and cannot reach that size.
-/

namespace Recordsmith

/-! ## Tallies -/

/-- Counts by name, in the order of the names. -/
abbrev Tally := List (Text × Nat)

namespace Tally

/-- The count of a name. -/
def count (t : Tally) (name : Text) : Nat := (t.lookup name).getD 0

/-- Adds to the count of a name. -/
def add (name : Text) (n : Nat) : Tally → Tally
  | [] => [(name, n)]
  | (other, m) :: rest =>
    if other = name then (other, m + n) :: rest
    else if name < other then (name, n) :: (other, m) :: rest
    else (other, m) :: add name n rest

/-- Adds all counts of another tally. -/
def merge (t u : Tally) : Tally := u.foldl (fun t (name, n) => add name n t) t

end Tally

/-! ## Reports -/

/-- What a run has done. -/
structure Report where
  requested : Nat := 0
  generated : Nat := 0
  usage : Tally := []
  fallbacks : Nat := 0
  unsupported : Nat := 0
  workerFailures : Nat := 0
deriving DecidableEq, Repr

namespace Report

/-- Nothing done. -/
def empty : Report := {}

/-- One more use of a function. -/
def recordUse (name : Text) (r : Report) : Report := { r with usage := r.usage.add name 1 }

/-- One more expression that failed and stayed as it was written. -/
def recordFallback (r : Report) : Report := { r with fallbacks := r.fallbacks + 1 }

/-- One more value that was left out because it has no JSON form. -/
def recordUnsupported (r : Report) : Report := { r with unsupported := r.unsupported + 1 }

/-- One more worker that broke down. -/
def recordWorkerFailure (r : Report) : Report := { r with workerFailures := r.workerFailures + 1 }

/-- More requested records. -/
def request (n : Nat) (r : Report) : Option Report :=
  if r.requested + n < twoTo 64 then some { r with requested := r.requested + n } else none

/-- Adds the counts of another report. -/
def merge (r s : Report) : Option Report :=
  (r.request s.requested).map fun t =>
    { t with
      generated := r.generated + s.generated
      usage := r.usage.merge s.usage
      fallbacks := r.fallbacks + s.fallbacks
      unsupported := r.unsupported + s.unsupported
      workerFailures := r.workerFailures + s.workerFailures }

end Report
end Recordsmith
