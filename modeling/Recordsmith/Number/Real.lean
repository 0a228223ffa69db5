import Recordsmith.Number.Binary
import Recordsmith.Text.Basic

/-!
# Written reals

Decimal reals, read as the nearest double.

* `splitDigits` cuts the leading digits off a text;
* `readReal` accepts digits with an optional point and an optional exponent after an optional sign,
  and the words `inf`, `infinity` and `nan` in any case.
-/

namespace Recordsmith

/-- What is wrong with a text that is no real. -/
inductive RealFault where
  | empty
  | invalid
deriving DecidableEq, Repr

/-- The wording of a real fault. -/
def RealFault.message : RealFault → String
  | .empty => "cannot parse float from empty string"
  | .invalid => "invalid float literal"

/-- The leading digits of a text and the rest. -/
def splitDigits (t : Text) : Text × Text := t.span fun c => (Text.digit? c).isSome

/-- The number that a row of digits writes. -/
def digitsValue (t : Text) : Nat := t.foldl (fun n c => n * 10 + (Text.digit? c).getD 0) 0

/-- The double nearest to `digits · 10 ^ exponent`. Exponents that no number of that many digits
    can bring back into the range of doubles are cut off first. -/
def decimalFloat (negative : Bool) (digits : Text) (exponent : Int) : Float :=
  let significant := digits.dropWhile (· = '0')
  let n := digitsValue significant
  let leading := exponent + significant.length
  if n = 0 ∨ leading < -400 then nearestFloat negative 0 1
  else if 400 < leading then nearestFloat negative (tenTo 400) 1
  else nearestFloat negative (n * tenTo exponent.toNat) (tenTo (-exponent).toNat)

/-- The exponent part of a real, which runs to the end of the text. -/
def readExponent? : Text → Option Int
  | [] => some 0
  | c :: rest =>
    if c = 'e' ∨ c = 'E' then
      let (negative, digits) :=
        match rest with
        | '-' :: digits => (true, digits)
        | '+' :: digits => (false, digits)
        | digits => (false, digits)
      if digits.isEmpty ∨ !digits.all fun c => (Text.digit? c).isSome then none
      else some (if negative then -digitsValue digits else digitsValue digits)
    else none

/-- A real without its sign. -/
def readUnsignedReal? (negative : Bool) (t : Text) : Option Float :=
  let (whole, rest) := splitDigits t
  let (fraction, rest) :=
    match rest with
    | '.' :: rest => splitDigits rest
    | rest => ([], rest)
  if whole.isEmpty ∧ fraction.isEmpty then none
  else
    (readExponent? rest).map fun e =>
      decimalFloat negative (whole ++ fraction) (e - fraction.length)

/-- The words for values that are no numbers. -/
def readSpecialReal? (negative : Bool) (t : Text) : Option Float :=
  let word := t.map Text.asciiLower
  if word = "nan".toList then some (Float.ofBits 0x7FF8000000000000)
  else if word = "inf".toList ∨ word = "infinity".toList then
    some (nearestFloat negative (tenTo 400) 1)
  else none

/-- Reads a real. -/
def readReal : Text → Except RealFault Float
  | [] => .error .empty
  | c :: cs =>
    let negative := c = '-'
    let body := if c = '-' ∨ c = '+' then cs else c :: cs
    match readUnsignedReal? negative body <|> readSpecialReal? negative body with
    | some x => .ok x
    | none => .error .invalid

end Recordsmith
