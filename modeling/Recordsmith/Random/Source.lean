import Recordsmith.Number.Power

/-!
# Sources of random words

A source hands out words and moves on.

* `WordSource` is the interface: 32-bit words, 64-bit words, and bytes;
* `Replay` repeats a given row of 64-bit words for ever;
* draws are state computations `StateM σ`, so that every use of a source is visible in its type.
-/

namespace Recordsmith

/-- A source of random words with states in `σ`. -/
class WordSource (σ : Type) where
  /-- The next 32-bit word. -/
  next32 : σ → UInt32 × σ
  /-- The next 64-bit word. -/
  next64 : σ → UInt64 × σ
  /-- The next bytes, as many as asked for. -/
  nextBytes : Nat → σ → List UInt8 × σ

namespace Draw

variable {σ : Type} [WordSource σ]

/-- Draws a 32-bit word. -/
def word32 : StateM σ UInt32 := fun s => WordSource.next32 s

/-- Draws a 64-bit word. -/
def word64 : StateM σ UInt64 := fun s => WordSource.next64 s

/-- Draws `n` bytes. -/
def bytes (n : Nat) : StateM σ (List UInt8) := fun s => WordSource.nextBytes n s

end Draw

/-- The `n` lowest bytes of a number, the lowest first. -/
def littleEndian : (n : Nat) → Nat → List UInt8
  | 0, _ => []
  | n + 1, word => UInt8.ofNat word :: littleEndian n (word / 256)

/-- The concatenated bytes of `n` words drawn with `next`. -/
def drawWords {σ : Type} (next : σ → List UInt8 × σ) : (n : Nat) → σ → List UInt8 × σ
  | 0, s => ([], s)
  | n + 1, s =>
    let (bytes, s) := next s
    let (rest, s) := drawWords next n s
    (bytes ++ rest, s)

/-! ## Replaying words -/

/-- A row of 64-bit words, repeated for ever, and the number of words drawn so far. -/
structure Replay where
  words : List UInt64
  position : Nat

namespace Replay

/-- The next word; an empty row yields zeros. -/
def next (r : Replay) : UInt64 × Replay :=
  (r.words.getD (r.position % r.words.length) 0, { r with position := r.position + 1 })

/-- Each draw takes whole words: a 32-bit draw the low half of one, a draw of bytes eight bytes of
    each, the lowest first. -/
instance : WordSource Replay where
  next32 r := let (word, r) := r.next; (UInt32.ofNat (word.toNat % twoTo 32), r)
  next64 := next
  nextBytes n r :=
    let (bytes, r) := drawWords (fun r => let (word, r) := next r; (littleEndian 8 word.toNat, r))
      ((n + 7) / 8) r
    (bytes.take n, r)

end Replay
end Recordsmith
