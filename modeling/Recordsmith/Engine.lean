import Recordsmith.Csv
import Recordsmith.Evaluator
import Recordsmith.Options
import Recordsmith.Random.ChaCha

/-!
# Runs

* `Conditions` are what a run finds: the present, and words for unseeded random sources;
* `Engine.run` generates the JSON records of a template, `Engine.runCsv` a CSV header and rows;
* `Engine.runBatch` lets several workers generate the records of an object template, and puts their
  results together in the order of the workers.

Runs of one engine continue the same sequence and the same cursor. A run that breaks down keeps what
it did to them.
-/

namespace Recordsmith

/-- What a run finds. -/
structure Conditions where
  now : Moment
  /-- The seed of a worker's random source, if the options have none. -/
  entropy : Nat → UInt64

/-- Records and the report of their run. -/
structure Generated where
  records : List Text
  report : Report

/-- The outcome of a run. -/
inductive Outcome where
  | generated (g : Generated)
  | failed (failure : Failure)
  /-- The run breaks down. -/
  | crashed

/-- The records of an outcome; none unless the run has succeeded. -/
def Outcome.records : Outcome → List Text
  | .generated g => g.records
  | _ => []

/-! ## Random sources -/

/-- Mixes a seed with a key. -/
def hashSeed (seed : UInt64) (key : Text) : UInt64 :=
  (Csv.utf8Bytes key).foldl (fun hash b => (hash ^^^ b.toUInt64) * 0x100000001b3)
    (seed ^^^ 0xcbf29ce484222325)

/-- The key of the random source of a run. -/
def runKey : Text := "run".toList

/-- The key of the random source of a worker. -/
def workerKey (index : Nat) : Text := "worker-".toList ++ Text.ofNat index

/-- The random source of a key. -/
def sourceFor (o : Options) (c : Conditions) (key : Text) (index : Nat) : ChaCha :=
  match o.seed with
  | some seed => .ofSeed (hashSeed (UInt64.ofNat seed) key)
  | none => .ofSeed (c.entropy index)

/-- A worker before its first record. -/
def Local.start {σ : Type} (source : σ) (nested : Nat) : Local σ := ⟨source, nested, .empty⟩

namespace Engine

/-! ## Single runs -/

/-- Ends a run: sets the counts of its records. -/
def finish (o : Options) (records : List Text) (made : Nat) (report : Report) : Generated :=
  ⟨records, { report with requested := o.recordCount, generated := made }⟩

/-- Generates the records of a template with one worker, on a shared state. -/
def walkWith {α : Type} (o : Options) (c : Conditions) (g : Gen ChaCha α) (s : Shared) :
    Option (α × Local ChaCha) × Shared :=
  (g (.start (sourceFor o c runKey 0) o.nested)).run s

/-- Generates the JSON records of a template. -/
def run (o : Options) (c : Conditions) (template : Text) (s : Shared) : Outcome × Shared :=
  match do o.validate; Template.parse template with
  | .error failure => (.failed failure, s)
  | .ok root =>
    match walkWith o c (Walk.lines (evaluateLeaf c.now) root o.recordCount) s with
    | (none, s) => (.crashed, s)
    | (some (lines, l), s) => (.generated (finish o lines lines.length l.report), s)

/-- Generates a CSV header and the rows of an object template. -/
def runCsv (o : Options) (c : Conditions) (template : Text) (s : Shared) : Outcome × Shared :=
  let prepared : Except Failure (UInt8 × Json × List Text) := do
    o.validate
    let delimiter ← o.delimiterByte
    let root ← Template.parse template
    pure (delimiter, root, ← Template.columns root)
  match prepared with
  | .error failure => (.failed failure, s)
  | .ok (delimiter, root, keys) =>
    match walkWith o c (Walk.records (evaluateLeaf c.now) root o.recordCount) s with
    | (none, s) => (.crashed, s)
    | (some (rows, l), s) =>
      let lines := Csv.header keys delimiter :: rows.map (Csv.row · keys delimiter)
      (.generated (finish o lines rows.length l.report), s)

/-! ## Batches -/

/-- The work of one worker of a batch: its records and its report. -/
def worker (o : Options) (c : Conditions) (root : Json) (index : Nat) : Work Generated := do
  let source := sourceFor o c (workerKey index) index
  let (lines, l) ← Walk.events (evaluateLeaf c.now) root o.recordCount (.start source o.nested)
  pure (finish o lines lines.length l.report)

/-- Adds the result of the next worker to a batch. The records of a worker that broke down count as
    requested. -/
def collect (o : Options) (batch : Generated) : Option Generated → Option Generated
  | some g => (batch.report.merge g.report).map fun report =>
    ⟨batch.records ++ g.records, report⟩
  | none => (batch.report.request o.recordCount).map fun report =>
    { batch with report := report.recordWorkerFailure }

/-- Puts the results of the workers together, in their order; none if their counts do not fit. -/
def assemble (o : Options) (results : List (Option Generated)) : Option Generated :=
  results.foldlM (collect o) ⟨[], .empty⟩

/-- Runs workers one after the other. -/
def runWorkers (work : Nat → Work Generated) :
    (indices : List Nat) → Shared → List (Option Generated) × Shared
  | [], s => ([], s)
  | index :: rest, s =>
    let (r, s) := (work index).run s
    let (results, s) := runWorkers work rest s
    (r :: results, s)

/-- The bytes of a worker in the list of workers. -/
def handleBytes : Nat := 8

/-- Lets the workers generate the records of an object template. -/
def runBatch (o : Options) (c : Conditions) (template : Text) (s : Shared) : Outcome × Shared :=
  match do o.validate; Template.parse template with
  | .error failure => (.failed failure, s)
  | .ok root =>
    if maxBytes < o.workerCount * handleBytes then (.crashed, s)
    else
      let (results, s) := runWorkers (worker o c root) (List.range o.workerCount) s
      match assemble o results with
      | some g => (.generated g, s)
      | none => (.crashed, s)

end Engine
end Recordsmith
