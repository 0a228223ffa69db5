import Recordsmith.Failure

/-!
# Options

* `Options` says how much to generate and how;
* `Options.validate` refuses options that no run accepts;
* `Options.delimiterByte` is the delimiter of CSV lines.
-/

namespace Recordsmith

/-- How much to generate, and how. The numbers are 64-bit words. -/
structure Options where
  /-- The number of records of a run, and of each worker of a batch. -/
  recordCount : Nat := 5
  /-- How often arrays repeat their items. -/
  nested : Nat := 0
  /-- The number of workers of a batch. -/
  workerCount : Nat := 2
  /-- What stands between the fields of a CSV line. -/
  delimiter : Text := [',']
  /-- Makes random values reproducible. -/
  seed : Option Nat := none
deriving DecidableEq, Repr

namespace Options

/-- The delimiter as a single byte. -/
def delimiterByte (o : Options) : Except Failure UInt8 :=
  match o.delimiter with
  | [c] => if c.toNat < 128 then .ok (UInt8.ofNat c.toNat) else .error (.wideDelimiter o.delimiter)
  | _ => .error (.wideDelimiter o.delimiter)

/-- There must be a worker, and the delimiter must be a single byte. -/
def validate (o : Options) : Except Failure Unit :=
  if o.workerCount = 0 then .error .noWorkers else o.delimiterByte.map fun _ => ()

end Options
end Recordsmith
