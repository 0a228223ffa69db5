import Recordsmith.Random.Source
import Recordsmith.Number.Binary
import Recordsmith.Text.Basic

/-!
# Bounded draws

Draws of numbers, choices and texts from a source of words.

* `spread` maps a word to a number below a bound by a widening multiplication, and corrects the bias
  with one more word where the low half of the product is large;
* `between32` and `between64` draw from a closed interval of integers;
* `unit` draws a double of `[0, 1)`, `coin` a Boolean;
* `choose`, `letters` and `uuid` are built on them.
-/

namespace Recordsmith.Draw

variable {σ : Type} [WordSource σ]

/-! ## Integers -/

/-- A number below `bound`, from words below `modulus` that `word` draws. The high half of the
    product of word and bound is the number; when the low half lies above `modulus - bound`, the
    high half of a second product is added to it, and a carry moves the number up by one. -/
def spread (modulus bound : Nat) (word : StateM σ Nat) : StateM σ Nat := do
  let first ← word
  let high := first * bound / modulus
  let low := first * bound % modulus
  if modulus - bound < low then
    let second ← word
    pure (high + (low + second * bound / modulus) / modulus)
  else
    pure high

/-- An integer from `low` to `high`, both included, by 32-bit words. -/
def between32 (low high : Int) : StateM σ Int := do
  let above ← spread (twoTo 32) (high - low + 1).toNat (do pure (← word32).toNat)
  pure (low + above)

/-- An integer from `low` to `high`, both included, by 64-bit words. -/
def between64 (low high : Int) : StateM σ Int := do
  let above ← spread (twoTo 64) (high - low + 1).toNat (do pure (← word64).toNat)
  pure (low + above)

/-- A natural number from `low` to `high`, both included, by 32-bit words, or by 64-bit words if
    `high` does not fit 32 bits. -/
def natBetween (low high : Nat) : StateM σ Nat := do
  let above ←
    if high < twoTo 32 then spread (twoTo 32) (high - low + 1) (do pure (← word32).toNat)
    else spread (twoTo 64) (high - low + 1) (do pure (← word64).toNat)
  pure (low + above)

/-! ## Doubles and Booleans -/

/-- A multiple of `2 ^ -53` in `[0, 1)`. -/
def unit : StateM σ Float := do
  let word ← word64
  pure ((word >>> 11).toFloat * Float.ofBits 0x3CA0000000000000)

/-- True for the lower half of the words. -/
def coin : StateM σ Bool := do
  let word ← word64
  pure (word.toNat < twoTo 63)

/-! ## Choices and texts -/

/-- One of the given values; nothing is drawn if there is none. -/
def choose {α : Type} (values : List α) : StateM σ (Option α) :=
  match values with
  | [] => pure none
  | _ :: _ => do
    let index ← natBetween 0 (values.length - 1)
    pure values[index]?

/-- The letters of the Latin alphabet, small ones first. -/
def alphabet : Text := "abcdefghijklmnopqrstuvwxyzABCDEFGHIJKLMNOPQRSTUVWXYZ".toList

/-- The letters of the Latin alphabet and the digits. -/
def alphabetAndDigits : Text := alphabet ++ "0123456789".toList

/-- A text of `n` characters of a set, put in front of the reversed text `drawn`. -/
def lettersFrom (set : Array Char) : (n : Nat) → (drawn : Text) → StateM σ Text
  | 0, drawn => pure drawn.reverse
  | n + 1, drawn => do
    let index ← natBetween 0 (set.size - 1)
    lettersFrom set n (set.getD index 'a' :: drawn)

/-- A text of `n` characters of a set. -/
def letters (set : Text) (n : Nat) : StateM σ Text := lettersFrom set.toArray n []

/-- The two hexadecimal digits of a byte. -/
def hexByte (b : UInt8) : Text := [Nat.digitChar (b.toNat / 16), Nat.digitChar (b.toNat % 16)]

/-- A random identifier of version 4 in its usual form. -/
def uuid : StateM σ Text := do
  let raw ← bytes 16
  let stamped := raw.mapIdx fun i b =>
    if i = 6 then (b &&& 0x0F) ||| 0x40 else if i = 8 then (b &&& 0x3F) ||| 0x80 else b
  pure (stamped.mapIdx fun i b =>
    if i = 4 ∨ i = 6 ∨ i = 8 ∨ i = 10 then '-' :: hexByte b else hexByte b).flatten

end Recordsmith.Draw
