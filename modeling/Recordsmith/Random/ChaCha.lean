import Recordsmith.Random.Source

/-!
# ChaCha with eight rounds

The stream of the ChaCha cipher with eight rounds, a 64-bit block counter and a zero nonce, read as
a source of 32-bit words.

* `ChaCha.block key counter` are the sixteen words of one block;
* `ChaCha.ofSeed` expands a 64-bit seed into the key by a congruential generator;
* the words of a block are handed out in order, a 64-bit draw takes two, the low one first.
-/

namespace Recordsmith

/-- A stream: the key, the number of the block after the current one, and the words of the current
    block that are still to be handed out. -/
structure ChaCha where
  key : Array UInt32
  counter : UInt64
  pending : List UInt32

namespace ChaCha

/-! ## Blocks -/

/-- Rotation to the left. -/
def rotateLeft (x n : UInt32) : UInt32 := (x <<< n) ||| (x >>> (32 - n))

/-- The quarter round on four words. -/
def quarter (a b c d : UInt32) : UInt32 × UInt32 × UInt32 × UInt32 :=
  let a := a + b; let d := rotateLeft (d ^^^ a) 16
  let c := c + d; let b := rotateLeft (b ^^^ c) 12
  let a := a + b; let d := rotateLeft (d ^^^ a) 8
  let c := c + d; let b := rotateLeft (b ^^^ c) 7
  (a, b, c, d)

/-- The quarter round on four places of a block. -/
def quarterAt (s : Array UInt32) (i j k l : Nat) : Array UInt32 :=
  let (a, b, c, d) := quarter (s.getD i 0) (s.getD j 0) (s.getD k 0) (s.getD l 0)
  (((s.setIfInBounds i a).setIfInBounds j b).setIfInBounds k c).setIfInBounds l d

/-- A column round followed by a diagonal round. -/
def doubleRound (s : Array UInt32) : Array UInt32 :=
  let s := quarterAt s 0 4 8 12
  let s := quarterAt s 1 5 9 13
  let s := quarterAt s 2 6 10 14
  let s := quarterAt s 3 7 11 15
  let s := quarterAt s 0 5 10 15
  let s := quarterAt s 1 6 11 12
  let s := quarterAt s 2 7 8 13
  quarterAt s 3 4 9 14

/-- `n` double rounds. -/
def doubleRounds : (n : Nat) → Array UInt32 → Array UInt32
  | 0, s => s
  | n + 1, s => doubleRounds n (doubleRound s)

/-- The words of one block. -/
def block (key : Array UInt32) (counter : UInt64) : List UInt32 :=
  let start : Array UInt32 :=
    (#[0x61707865, 0x3320646e, 0x79622d32, 0x6b206574] : Array UInt32) ++ key ++
      (#[counter.toUInt32, (counter >>> 32).toUInt32, 0, 0] : Array UInt32)
  (Array.zipWith (· + ·) start (doubleRounds 4 start)).toList

/-! ## The stream -/

/-- The next word of the stream. -/
def next (s : ChaCha) : UInt32 × ChaCha :=
  match s.pending with
  | word :: pending => (word, { s with pending })
  | [] =>
    match block s.key s.counter with
    | word :: pending => (word, { s with counter := s.counter + 1, pending })
    | [] => (0, s)

/-- Two words as one, the low one first. -/
def nextPair (s : ChaCha) : UInt64 × ChaCha :=
  let (low, s) := s.next
  let (high, s) := s.next
  (low.toUInt64 ||| (high.toUInt64 <<< 32), s)

instance : WordSource ChaCha where
  next32 := next
  next64 := nextPair
  nextBytes n s :=
    let (bytes, s) := drawWords (fun s => let (word, s) := next s; (littleEndian 4 word.toNat, s))
      ((n + 3) / 4) s
    (bytes.take n, s)

/-! ## Seeds -/

/-- One step of the generator that expands a seed. -/
def seedStep (state : UInt64) : UInt32 × UInt64 :=
  let state := state * 6364136223846793005 + 11634580027462260723
  let mixed := (((state >>> 18) ^^^ state) >>> 27).toUInt32
  let turn := (state >>> 59).toUInt32
  ((mixed >>> turn) ||| (mixed <<< ((32 - turn) % 32)), state)

/-- `n` words of the generator that expands a seed. -/
def seedWords : (n : Nat) → UInt64 → List UInt32
  | 0, _ => []
  | n + 1, state =>
    let (word, state) := seedStep state
    word :: seedWords n state

/-- The stream of a seed. -/
def ofSeed (seed : UInt64) : ChaCha := ⟨(seedWords 8 seed).toArray, 0, []⟩

end ChaCha
end Recordsmith
