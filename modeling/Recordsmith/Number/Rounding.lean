import Recordsmith.Number.Binary

/-!
# Rounding to decimal places

* `powInt` is a power with an integer exponent, by repeated squaring;
* `roundPlaces` rounds a double to a number of decimal places, halves away from zero.
-/

namespace Recordsmith

/-- `r · a ^ n` by repeated squaring, in at most `fuel` squarings. -/
def powFrom : (fuel : Nat) → (r a : Float) → (n : Nat) → Float
  | 0, r, _, _ => r
  | fuel + 1, r, a, n =>
    let r := if n % 2 = 1 then r * a else r
    if n / 2 = 0 then r else powFrom fuel r (a * a) (n / 2)

/-- The power of a double; a negative exponent gives the inverse of the positive power. -/
def powInt (a : Float) (n : Int) : Float :=
  let r := powFrom (n.natAbs + 1) 1 a n.natAbs
  if n < 0 then 1 / r else r

/-- The bound from which on doubles are too large to carry a fraction that could be rounded. -/
def roundingBound : Float := powerOfTen 15

/-- Rounds to decimal places, halves away from zero. Values from the bound on, and values that are
    not finite, stay as they are. -/
def roundPlaces (x : Float) (places : Int) : Float :=
  if !x.isFinite || roundingBound ≤ x.abs then x
  else
    let factor := powInt (powerOfTen 1) places
    (x * factor).round / factor

end Recordsmith
