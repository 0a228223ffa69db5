import Recordsmith.Json.Pretty
import Recordsmith.Report

/-!
# Report files

* `Tally.toJson` and `Report.toJson` are the JSON forms of counts and reports; a report carries the
  identifier of its run and the time that the run took;
* `Report.fileText` is the content of a report file.
-/

namespace Recordsmith

/-- Counts by name as an object. -/
def Tally.toJson (t : Tally) : Json := .obj (t.map fun (name, n) => (name, .int n))

/-- What a report file tells about a run beside its counts. -/
structure RunStamp where
  /-- The identifier of the run. -/
  id : Text
  /-- The time that the run took. -/
  milliseconds : Nat

/-- A report as an object. -/
def Report.toJson (stamp : RunStamp) (r : Report) : Json :=
  .obj
    [("run_id".toList, .str stamp.id),
     ("records_requested".toList, .int r.requested),
     ("records_generated".toList, .int r.generated),
     ("function_usage".toList, r.usage.toJson),
     ("fallback_count".toList, .int r.fallbacks),
     ("unsupported_count".toList, .int r.unsupported),
     ("worker_failures".toList, .int r.workerFailures),
     ("duration_ms".toList, .int stamp.milliseconds)]

/-- The content of a report file. -/
def Report.fileText (stamp : RunStamp) (r : Report) : Text := (r.toJson stamp).renderLines

end Recordsmith
