import Recordsmith.Cursor
import Recordsmith.Random.Source
import Recordsmith.Report
import Recordsmith.Sequence

/-!
# Workers

The records of a run are made by workers. Each has its own random source and its own report; the
sequence counter and the date cursor are shared by all.

* `Shared` is what workers share;
* `Work` is the computation of a worker: it pauses at each use of what is shared, so that the uses
  of several workers can follow each other in any order;
* `Work.run` answers all uses of one worker, one after the other;
* `Gen` are the computations of a worker that also use what is its own.

A worker breaks down (`Work.crash`) where it would need more memory than can be addressed, or where a
number or a time leaves its range unchecked: what it did to the shared state stays, what is its own is
lost.
-/

namespace Recordsmith

/-! ## What is shared -/

/-- The counter and the cursor of a run. -/
structure Shared where
  sequence : Sequence
  cursor : Cursor

/-- Before the first record. -/
def Shared.fresh : Shared := ⟨.fresh, none⟩

/-! ## Work -/

/-- The computation of a worker. -/
inductive Work (α : Type) where
  | done (a : α)
  | crash
  /-- Takes the next sequence number. -/
  | next (seed : Option Int) (resume : Int → Work α)
  /-- Takes the next date of the cursor. -/
  | advance (request : CursorRequest) (resume : Except StepFault Zoned → Work α)

namespace Work

variable {α β : Type}

/-- Goes on with `f` when the work is done. -/
def bind (f : α → Work β) : Work α → Work β
  | done a => f a
  | crash => crash
  | next seed resume => next seed fun n => (resume n).bind f
  | advance request resume => advance request fun r => (resume r).bind f

instance : Monad Work where
  pure := done
  bind w f := w.bind f

/-- Answers all uses of the shared state; no result if the worker breaks down. -/
def run : Work α → Shared → Option α × Shared
  | done a, s => (some a, s)
  | crash, s => (none, s)
  | next seed resume, s =>
    let (n, sequence) := s.sequence.next seed
    run (resume n) { s with sequence }
  | advance request resume, s =>
    let (r, cursor) := s.cursor.advance request
    run (resume r) { s with cursor }

end Work

/-! ## Computations of a worker -/

/-- What is a worker's own: its random source, the repetition of arrays, and its report. -/
structure Local (σ : Type) where
  source : σ
  nested : Nat
  report : Report

/-- A computation of a worker on what is its own and what is shared. -/
abbrev Gen (σ : Type) := StateT (Local σ) Work

namespace Gen

variable {σ α : Type}

/-- Draws from the random source. -/
def draw (d : StateM σ α) : Gen σ α := fun l =>
  let (a, source) := d l.source
  .done (a, { l with source })

/-- Changes the report. -/
def note (f : Report → Report) : Gen σ Unit := modify fun l => { l with report := f l.report }

/-- Breaks down. -/
def crash : Gen σ α := fun _ => .crash

/-- Takes the next sequence number. -/
def nextNumber (seed : Option Int) : Gen σ Int := fun l => .next seed fun n => .done (n, l)

/-- Takes the next date of the cursor. -/
def nextDate (request : CursorRequest) : Gen σ (Except StepFault Zoned) := fun l =>
  .advance request fun r => .done (r, l)

/-- Runs a computation with another repetition of arrays. -/
def withNested (nested : Nat) (g : Gen σ α) : Gen σ α := do
  let outer := (← get).nested
  modify fun l => { l with nested }
  let a ← g
  modify fun l => { l with nested := outer }
  pure a

end Gen
end Recordsmith
