import Recordsmith.Number.Power

/-!
# Doubles as binary fractions

A finite double is `m · 2 ^ q` with whole numbers `m` and `q`.

* `Binary.ofBits` reads the parts of a double off its 64 bits;
* `nearestBits num den` are the bits of the double nearest to `num / den`; of two equally near ones
  the one with an even last bit;
* `powerOfTen` is the double nearest to a power of ten.
-/

namespace Recordsmith

/-- The parts of a double. -/
inductive Binary where
  | nan
  | infinite (negative : Bool)
  | finite (negative : Bool) (m : Nat) (q : Int)
deriving DecidableEq, Repr

/-- The parts of the double with these bits: one sign bit, eleven exponent bits, and 52 bits that
    follow an implicit leading one unless the exponent is zero. -/
def Binary.ofBits (bits : Nat) : Binary :=
  let negative : Bool := twoTo 63 ≤ bits
  let exponent : Nat := bits / twoTo 52 % twoTo 11
  let fraction : Nat := bits % twoTo 52
  if exponent = 2047 then if fraction = 0 then .infinite negative else .nan
  else if exponent = 0 then .finite negative fraction (-1074)
  else .finite negative (fraction + twoTo 52) (exponent - 1075)

/-- The parts of a double. -/
def Binary.ofFloat (x : Float) : Binary := .ofBits x.toBits.toNat

/-- A quotient rounded to the nearest whole number, halves to the even one. -/
def roundDivEven (num den : Nat) : Nat :=
  let quotient := num / den
  let rest := num % den
  if 2 * rest < den ∨ (2 * rest = den ∧ quotient % 2 = 0) then quotient else quotient + 1

/-- `num / den / 2 ^ q` as a numerator and a denominator. -/
def scaledQuotient (num den : Nat) (q : Int) : Nat × Nat :=
  (num * twoTo (-q).toNat, den * twoTo q.toNat)

/-- The bits of the non-negative double nearest to `num / den`. -/
def nearestBits (num den : Nat) : Nat :=
  if num = 0 then 0
  else
    let guess : Int := (num.log2 : Int) - den.log2 - 53
    let (n, d) := scaledQuotient num den guess
    let q := max (-1074) (if n / d < twoTo 53 then guess else guess + 1)
    let (n, d) := scaledQuotient num den q
    let m := roundDivEven n d
    if m < twoTo 52 then m else min (2047 * twoTo 52) ((q + 1074).toNat * twoTo 52 + m)

/-- The double nearest to `num / den`, with a sign. -/
def nearestFloat (negative : Bool) (num den : Nat) : Float :=
  Float.ofBits (UInt64.ofNat (nearestBits num den + if negative then twoTo 63 else 0))

/-- The double nearest to `10 ^ n`. -/
def powerOfTen (n : Nat) : Float := nearestFloat false (tenTo n) 1

end Recordsmith
