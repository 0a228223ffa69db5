import Recordsmith.Command.Bundled
import Recordsmith.Command.Directory
import Recordsmith.Command.Invocation
import Recordsmith.Engine

/-!
# Sessions

What the program does, from its command line to its end.

* `Session.run` reads the settings, then the template, then generates, and at last writes the
  records, and the report if one is wanted;
* `Session.Ending` tells how a session ends, and `Session.Ending.code` is its exit code.

A session reads files and asks where it can write through `Surroundings`; what it writes stands in
its result.
-/

namespace Recordsmith

/-- The files around a session. -/
structure Surroundings where
  entry : Text → Entry
  canWrite : Text → Bool

/-- A directory as the surroundings of a session. -/
def Directory.surroundings (d : Directory) : Surroundings := ⟨d.entry, d.canWrite⟩

namespace Session

/-- Why a session fails. -/
inductive Cause where
  | generation (failure : Failure)
  | inputOutput
  | settingsSyntax

/-- The wording of a cause. -/
def Cause.message : Cause → String
  | .generation failure => s!"generation error: {failure.message}"
  | .inputOutput => "io error"
  | .settingsSyntax => "toml decode error"

/-- How a session ends. -/
inductive Ending where
  | done
  | usage (u : Usage)
  | failed (cause : Cause)
  | crashed

/-- The exit code. -/
def Ending.code : Ending → Nat
  | .done => 0
  | .usage .refused => 2
  | .usage _ => 0
  | .failed _ => 1
  | .crashed => 101

/-- What a session tells beside its records. -/
inductive Notice where
  /-- There is no template at the path. -/
  | bundledTemplate (path : Text)
  /-- An array template needs no workers. -/
  | singleRecord
deriving DecidableEq

/-- The wording of a notice. -/
def Notice.message : Notice → String
  | .bundledTemplate path => s!"template {quoteText path} not found, using bundled default"
  | .singleRecord =>
    "array templates produce a single record, generating without workers"

/-- What a session has written, and how it ended. -/
structure Result where
  /-- What stands in the standard output. -/
  stdout : Text := []
  /-- The file for the records, with its path. -/
  out : Option (Text × Text) := none
  /-- The report, with the path of its file. -/
  report : Option (Text × Report) := none
  ending : Ending := .done
  notices : List Notice := []
  logFormat : LogFormat := .text

/-! ## Reading -/

/-- The settings of a session. -/
def settings (s : Surroundings) (i : Invocation) : Except Cause Settings :=
  match i.value? .config with
  | none => .ok {}
  | some path =>
    match s.entry path with
    | .file t =>
      match Settings.ofToml? t with
      | some settings => .ok settings
      | none => .error .settingsSyntax
    | .missing | .unreadable => .error .inputOutput

/-- The template of a session; the bundled one if there is none at its path. -/
def template (s : Surroundings) (i : Invocation) : Except Cause Text :=
  match s.entry ((i.value? .template).getD []) with
  | .file t => .ok t
  | .missing => .ok bundledTemplate.render
  | .unreadable => .error .inputOutput

/-! ## Generating -/

/-- An array template makes a single record and needs no batch. -/
def isArrayTemplate (t : Text) : Bool :=
  match Template.parse t with
  | .ok root => root.isArray
  | .error _ => false

/-- Generates the records of a command. -/
def generate (c : Conditions) (command : Option Command) (o : Options) (t : Text) : Outcome :=
  match command with
  | some .csv => (Engine.runCsv o c t .fresh).1
  | _ =>
    if isArrayTemplate t then (Engine.run o c t .fresh).1 else (Engine.runBatch o c t .fresh).1

/-! ## Writing -/

/-- The records, each on a line of its own. -/
def linesOf (records : List Text) : Text := records.flatMap (· ++ ['\n'])

/-- Writes the report, if one is wanted. -/
def writeReport (s : Surroundings) (i : Invocation) (report : Report) (r : Result) : Result :=
  match i.value? .report with
  | none => r
  | some path =>
    if s.canWrite path then { r with report := some (path, report) }
    else { r with ending := .failed .inputOutput }

/-- Writes the records to the output or to a file, and then the report. -/
def write (s : Surroundings) (i : Invocation) (g : Generated) : Result :=
  match i.value? .out with
  | none => writeReport s i g.report { stdout := linesOf g.records }
  | some path =>
    if s.canWrite path then writeReport s i g.report { out := some (path, linesOf g.records) }
    else { ending := .failed .inputOutput }

/-! ## Running -/

/-- What the session tells about its template. -/
def notices (s : Surroundings) (i : Invocation) (t : Text) : List Notice :=
  let path := (i.value? .template).getD []
  (if s.entry path = .missing then [.bundledTemplate path] else []) ++
    (if i.command = some .json ∧ isArrayTemplate t then [.singleRecord] else [])

/-- Generates the records of a template and writes them. -/
def produce (c : Conditions) (s : Surroundings) (i : Invocation) (o : Options) (t : Text) :
    Result :=
  match generate c i.command o t with
  | .generated g => write s i g
  | .failed failure => { ending := .failed (.generation failure) }
  | .crashed => { ending := .crashed }

/-- Runs a session whose command line has been read. -/
def runInvocation (c : Conditions) (s : Surroundings) (i : Invocation) : Result :=
  match settings s i with
  | .error cause => { ending := .failed cause, logFormat := i.logFormat .text }
  | .ok settings =>
    let logFormat := i.logFormat settings.logFormat
    match template s i with
    | .error cause => { ending := .failed cause, logFormat }
    | .ok t =>
      { produce c s i (i.options settings.options) t with notices := notices s i t, logFormat }

/-- Runs a session. -/
def run (c : Conditions) (s : Surroundings) (words : List Text) : Result :=
  match Invocation.parse words with
  | .ok i => runInvocation c s i
  | .error usage => { ending := .usage usage }

end Session
end Recordsmith
