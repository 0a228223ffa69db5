import Recordsmith.Text.Basic

/-!
# Written integers

Decimal integers that must fit a machine word.

* `IntegerRange` is the set of values of a word, with `int32`, `int64` and `word64`;
* `readInteger` reads a text as a value of a range, or says what is wrong with it: the first
  character that is no digit, or the first digit that leaves the range, whichever stands first.
-/

namespace Recordsmith

/-- The values of a machine word. -/
structure IntegerRange where
  min : Int
  max : Int

namespace IntegerRange

/-- Signed 32-bit words. -/
def int32 : IntegerRange := ⟨-2147483648, 2147483647⟩

/-- Signed 64-bit words. -/
def int64 : IntegerRange := ⟨-9223372036854775808, 9223372036854775807⟩

/-- Unsigned 64-bit words. -/
def word64 : IntegerRange := ⟨0, 18446744073709551615⟩

/-- A value, provided that the word has it. -/
def checked (range : IntegerRange) (n : Int) : Option Int :=
  if range.min ≤ n ∧ n ≤ range.max then some n else none

end IntegerRange

/-- What is wrong with a text that is no integer of the wanted range. -/
inductive IntegerFault where
  | empty
  | invalidDigit
  | tooLarge
  | tooSmall
deriving DecidableEq, Repr

/-- The wording of an integer fault. -/
def IntegerFault.message : IntegerFault → String
  | .empty => "cannot parse integer from empty string"
  | .invalidDigit => "invalid digit found in string"
  | .tooLarge => "number too large to fit in target type"
  | .tooSmall => "number too small to fit in target type"

/-- Reads digits after the value `n`, as long as the value does not pass `limit`. -/
def readDigits (limit : Nat) (beyond : IntegerFault) : (n : Nat) → Text → Except IntegerFault Nat
  | n, [] => .ok n
  | n, c :: cs =>
    match Text.digit? c with
    | none => .error .invalidDigit
    | some d =>
      if limit < n * 10 + d then .error beyond else readDigits limit beyond (n * 10 + d) cs

/-- Reads an integer: digits after an optional sign. A minus sign belongs to ranges that have
    negative values only. -/
def readInteger (range : IntegerRange) : Text → Except IntegerFault Int
  | [] => .error .empty
  | ['+'] | ['-'] => .error .invalidDigit
  | '+' :: digits => (readDigits range.max.toNat .tooLarge 0 digits).map Int.ofNat
  | '-' :: digits =>
    if range.min < 0 then (readDigits range.min.natAbs .tooSmall 0 digits).map (-Int.ofNat ·)
    else .error .invalidDigit
  | digits => (readDigits range.max.toNat .tooLarge 0 digits).map Int.ofNat

end Recordsmith
