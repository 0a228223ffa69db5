/-!
# Sequence numbers

A counter that every record of a run shares.

* `Sequence.next` hands out the next number; the first call may choose where to start, and later
  calls ignore their choice;
* numbers stop at the greatest 64-bit integer.
-/

namespace Recordsmith

/-- The counter: the number to hand out next, and whether one was handed out before. -/
structure Sequence where
  number : Int
  started : Bool
deriving DecidableEq, Repr

namespace Sequence

/-- The greatest number. -/
def greatest : Int := 9223372036854775807

/-- The first number, unless the first call chooses another. -/
def initial : Int := 1

/-- A fresh counter. -/
def fresh : Sequence := ⟨initial, false⟩

/-- Hands out a number. -/
def next (s : Sequence) (seed : Option Int) : Int × Sequence :=
  let number := if s.started then s.number else seed.getD s.number
  (number, ⟨min (number + 1) greatest, true⟩)

end Sequence
end Recordsmith
