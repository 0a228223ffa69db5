import Recordsmith.Number.Binary
import Recordsmith.Text.Basic

/-!
# Shortest decimals

The decimal `k · 10 ^ p` with the fewest digits that reads back as a given double, and of those the
nearest one.

* `shortest` searches the decimal grids from coarse to fine: on each grid only the two neighbours of
  the value can lie in the interval of the numbers that read back as it;
* `Layout` holds the decisions of a number format, and `Layout.render` writes a double in it;
* `Layout.plain` never uses an exponent, `Layout.json` does outside a range.
-/

namespace Recordsmith

/-- How a value midway between two shortest decimals goes. -/
inductive Tie where
  | even
  | up
deriving DecidableEq, Repr

/-- The shortest decimal on the grid of unit `10 ^ p` for the value `v / d`, if a neighbour of the
    value on the grid lies between `lo / d` and `hi / d`, ends included iff `closed`. -/
def onGrid? (tie : Tie) (closed : Bool) (lo v hi d : Nat) (p : Int) : Option Nat :=
  let up := tenTo (-p).toNat
  let unit := d * tenTo p.toNat
  let (lo, v, hi) := (lo * up, v * up, hi * up)
  let k := v / unit
  let inside (x : Nat) : Bool := if closed then lo ≤ x && x ≤ hi else lo < x && x < hi
  match inside (k * unit), inside ((k + 1) * unit) with
  | true, true =>
    let below := v - k * unit
    let above := (k + 1) * unit - v
    if below < above then some k
    else if above < below then some (k + 1)
    else if tie = .even ∧ k % 2 = 0 then some k else some (k + 1)
  | true, false => some k
  | false, true => some (k + 1)
  | false, false => none

/-- The first of at most `fuel` grids, from exponent `p` downwards, that has a decimal. -/
def firstGrid (tie : Tie) (closed : Bool) (lo v hi d : Nat) : (fuel : Nat) → (p : Int) → Nat × Int
  | 0, p => (0, p)
  | fuel + 1, p =>
    match onGrid? tie closed lo v hi d p with
    | some k => (k, p)
    | none => firstGrid tie closed lo v hi d fuel (p - 1)

/-- The shortest decimal `k · 10 ^ p` of the double `m · 2 ^ q`, `m` not zero. The numbers that
    read back as it reach half a unit up, and half a unit down or a quarter below a power of two. -/
def shortest (tie : Tie) (m : Nat) (q : Int) : Nat × Int :=
  let scale := twoTo (q - 2).toNat
  let d := twoTo (2 - q).toNat
  let down := if m = twoTo 52 ∧ -1074 < q then 1 else 2
  let magnitude : Int := m.log2 + q + 1
  firstGrid tie (m % 2 == 0) ((4 * m - down) * scale) (4 * m * scale) ((4 * m + 2) * scale) d
    25 (magnitude * 30103 / 100000 + 1)

/-- The decisions of a number format. -/
structure Layout where
  /-- Which way a value midway between two shortest decimals goes. -/
  tie : Tie
  /-- The exponents of the first digit that are written without an exponent. -/
  positional : Int → Bool
  /-- A whole number is written with `.0`. -/
  pointZero : Bool

namespace Layout

/-- Positional always, without `.0`. -/
def plain : Layout := ⟨.up, fun _ => true, false⟩

/-- Positional from `0.00001` to `9999999999999999.0`, with an exponent otherwise. -/
def json : Layout := ⟨.even, fun e => -5 ≤ e && e ≤ 15, true⟩

/-- The decimal `k · 10 ^ p`. -/
def renderDecimal (l : Layout) (k : Nat) (p : Int) : Text :=
  let digits := Text.ofNat k
  let exponent := p + digits.length - 1
  if l.positional exponent then
    if 0 ≤ p then
      digits ++ List.replicate p.toNat '0' ++ if l.pointZero then ['.', '0'] else []
    else if 0 ≤ exponent then
      digits.take (exponent.toNat + 1) ++ '.' :: digits.drop (exponent.toNat + 1)
    else
      '0' :: '.' :: (List.replicate (-exponent - 1).toNat '0' ++ digits)
  else
    let fraction := digits.drop 1
    digits.take 1 ++ (if fraction.isEmpty then [] else '.' :: fraction) ++
      'e' :: (if exponent < 0 then '-' else '+') :: Text.ofNat exponent.natAbs

/-- A double. -/
def render (l : Layout) (x : Float) : Text :=
  match Binary.ofFloat x with
  | .nan => "NaN".toList
  | .infinite negative => (if negative then ['-'] else []) ++ "inf".toList
  | .finite negative 0 _ =>
    (if negative then ['-'] else []) ++ '0' :: if l.pointZero then ['.', '0'] else []
  | .finite negative m q =>
    let (k, p) := shortest l.tie m q
    (if negative then ['-'] else []) ++ l.renderDecimal k p

end Layout
end Recordsmith
