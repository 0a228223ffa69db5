import Recordsmith.Command.ReportFile
import Recordsmith.Command.Session
import Std.Time.DateTime.Timestamp

/-!
# The program

`synthgen` finds out what surrounds it, runs a session, and carries out what the session has
written.

* `Program.conditions` and `Program.surroundings` ask the system for the time, for random words, and
  for the files that the command line names;
* `Program.carryOut` writes what a session has written;
* `main` does both and returns the exit code.
-/

namespace Recordsmith.Program

/-! ## Asking the system -/

/-- The present. -/
def present : IO Moment := do
  let time ← Std.Time.Timestamp.now
  pure ((Moment.midnight Date.epoch).add time.toNanosecondsSinceUnixEpoch.val)

/-- A random word. -/
def randomWord : IO UInt64 := do
  pure ((← IO.getRandomBytes 8).toList.foldl (fun word b => word * 256 + b.toUInt64) 0)

/-- What a run finds: the time, and seeds that one random word makes. -/
def conditions : IO Conditions := do
  let word ← randomWord
  pure ⟨← present, fun index => hashSeed word (workerKey index)⟩

/-- An identifier for a run. -/
def runId : IO Text := do
  pure (Draw.uuid (ChaCha.ofSeed (← randomWord))).1

/-- The system's number for reading a directory as a file. -/
def isDirectoryCode : UInt32 := 21

/-- What stands at a path. A path through a file, or one that is too long, leads to nothing. -/
def entry (path : Text) : IO Entry := do
  try pure (.file (← IO.FS.readFile (String.ofList path)).toList)
  catch
    | .noFileOrDirectory _ _ _ | .invalidArgument _ _ _ => pure .missing
    | .inappropriateType _ code _ =>
      pure (if code = isDirectoryCode then .unreadable else .missing)
    | _ => pure .unreadable

/-- The files that a command line names. Whether a file can be written shows when it is written. -/
def surroundings (words : List Text) : IO Surroundings := do
  let paths :=
    match Invocation.parse words with
    | .ok i => [i.value? .config, i.value? .template].filterMap id
    | .error _ => []
  let entries ← paths.mapM fun path => do pure (path, ← entry path)
  pure ⟨fun path => (entries.lookup path).getD .missing, fun _ => true⟩

/-! ## Carrying out -/

/-- How to call the program, line by line. -/
def usageLines : List String :=
  ["Template-driven synthetic data generator",
   "",
   "Usage: synthgen [--config <FILE>] [--log-format <text|json>] <COMMAND>",
   "",
   "Commands:",
   "  json  Emit JSON records, one per line",
   "  csv   Emit a CSV header and one row per record",
   "",
   "Options of both commands:",
   "  -t, --template <FILE>   Template for generating synthetic data",
   "  -n, --count <N>         Number of records, for json per worker",
   "      --seed <N>          Seed for reproducible random values",
   "      --out <FILE>        Write here instead of stdout",
   "",
   "Options of json:",
   "  -a, --nested <N>        Repetitions of array elements",
   "  -x, --workers <N>       Number of concurrent workers",
   "      --report <FILE>     Write the generation report as JSON",
   "",
   "Options of csv:",
   "  -d, --delimiter <TEXT>  Column delimiter"]

/-- How to call the program. -/
def usageText : String := "\n".intercalate usageLines

/-- The name and the version of the program. -/
def versionText : String := "synthgen 0.1.0"

/-- A line for the log. -/
def logLine (format : LogFormat) (level message : String) : String :=
  match format with
  | .text => s!"{level} {message}"
  | .json =>
    String.ofList (Json.render (.obj [("level".toList, .str level.toList),
      ("message".toList, .str message.toList)]))

/-- Writes a file. -/
def writeText (path content : Text) : IO Unit :=
  IO.FS.writeFile (String.ofList path) (String.ofList content)

/-- Tells how a session ended, unless all is well. -/
def tellEnding (format : LogFormat) : Session.Ending → IO Unit
  | .done => pure ()
  | .usage .help => IO.println usageText
  | .usage .version => IO.println versionText
  | .usage .refused => IO.eprintln usageText
  | .failed cause => IO.eprintln (logLine format "ERROR" cause.message)
  | .crashed => IO.eprintln (logLine format "ERROR" "the run needs too much memory")

/-- Writes what a session has written: notices, records, and the report. -/
def carryOut (stamp : RunStamp) (r : Session.Result) : IO Unit := do
  for notice in r.notices do IO.eprintln (logLine r.logFormat "WARN" notice.message)
  IO.print (String.ofList r.stdout)
  if let some (path, records) := r.out then writeText path records
  if let some (path, report) := r.report then writeText path (report.fileText stamp)
  tellEnding r.logFormat r.ending

/-- Runs the program; the exit code. -/
def run (words : List Text) : IO UInt32 := do
  let conditions ← conditions
  let surroundings ← surroundings words
  let begin ← IO.monoMsNow
  let r ← pure (Session.run conditions surroundings words)
  let stamp : RunStamp := ⟨← runId, (← IO.monoMsNow) - begin⟩
  try
    carryOut stamp r
    pure (UInt32.ofNat r.ending.code)
  catch fault => do
    IO.eprintln (logLine r.logFormat "ERROR" s!"io error: {fault}")
    pure (UInt32.ofNat (Session.Ending.failed .inputOutput).code)

end Recordsmith.Program

/-- The program. -/
def main (arguments : List String) : IO UInt32 :=
  Recordsmith.Program.run (arguments.map String.toList)
