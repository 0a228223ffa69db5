import Recordsmith.Call
import Recordsmith.Failure

/-!
# Arguments of calls

Reading the arguments of a call as numbers and texts. One layer of quotes is stripped everywhere,
and an argument that is empty then counts as absent.

* `readIntegerArgument`, `readRealArgument` read a text as a number;
* `Call.integer?`, `Call.real?` read an optional argument, `Call.text?`, `Call.requiredText` a text;
* `readNowOffset` reads `now`, `now+N` and `now-N`.
-/

namespace Recordsmith

open Text (stripQuotes)

/-! ## Numbers -/

/-- Reads a text as a number, on behalf of a function. -/
def readNumber {α : Type} (read : Text → Except NumberFault α) (function raw : Text) :
    Except Failure α :=
  let value := stripQuotes raw
  (read value).mapError fun fault => .argument function (.invalidNumber value fault)

/-- Reads a text as an integer of a range. -/
def readIntegerArgument (range : IntegerRange) : (function raw : Text) → Except Failure Int :=
  readNumber fun t => (readInteger range t).mapError .integer

/-- Reads a text as a double. -/
def readRealArgument : (function raw : Text) → Except Failure Float :=
  readNumber fun t => (readReal t).mapError .real

namespace Call

/-- The argument at an index, without quotes, unless it is absent or empty. -/
def text? (c : Call) (index : Nat) : Option Text :=
  ((c.argument? index).map stripQuotes).filter (!·.isEmpty)

/-- The argument at an index, without quotes, which must not be empty. -/
def requiredText (c : Call) (index : Nat) (what : String) : Except Failure Text :=
  match c.text? index with
  | some t => .ok t
  | none => .error (.argument c.name (.missing what))

/-- The argument at an index as a number, if it is there. -/
def number? {α : Type} (read : (function raw : Text) → Except Failure α) (c : Call) (index : Nat) :
    Except Failure (Option α) :=
  match c.argument? index with
  | none => .ok none
  | some raw => if (stripQuotes raw).isEmpty then .ok none else (read c.name raw).map some

end Call

/-! ## Offsets from now -/

/-- Why no offset is read: the text tells none, or its sign leads out of the 64-bit words. -/
inductive OffsetFault where
  | refused (failure : Failure)
  | overflow
deriving DecidableEq, Repr

/-- Reads the number behind a sign, and applies the sign to it. -/
def readSigned (sign : Int) (function digits : Text) : Except OffsetFault (Option Int) := do
  let amount ← (readIntegerArgument .int64 function (Text.trim digits)).mapError .refused
  match IntegerRange.int64.checked (sign * amount) with
  | some n => .ok (some n)
  | none => .error .overflow

/-- A text that starts with `now`: the signed number after it, 0 if there is none. Other texts are
    no offsets. -/
def readNowOffset (function text : Text) : Except OffsetFault (Option Int) :=
  let offset := stripQuotes text
  match Text.dropWord? "now".toList offset with
  | none => .ok none
  | some rest =>
    match Text.trim rest with
    | [] => .ok (some 0)
    | '-' :: digits => readSigned (-1) function digits
    | '+' :: digits => readSigned 1 function digits
    | _ => .error (.refused (.argument function (.invalidOffset offset)))

end Recordsmith
