import Recordsmith.Json.Basic
import Recordsmith.Json.Fault
import Recordsmith.Number.Binary

/-!
# Reading JSON

* `Json.Input` is a text that is being read, with the place reached in it;
* `Json.value` reads a value with arrays and objects nested at most `depth` deep;
* `Json.parse` reads a text that holds one value and white space around it.

The integer literals that fit a 64-bit word are integers, all other numbers doubles. A double is
computed from at most 64 bits of its digits by one division or multiplication by a power of ten, or
by more where a single power does not suffice.
-/

namespace Recordsmith.Json

/-! ## Input -/

/-- A text that is being read: what is left of it, and the place reached. -/
structure Input where
  rest : Text
  place : Position

namespace Input

/-- The input after a number of characters, of which `taken` are the ones passed. -/
def pass (i : Input) (taken rest : Text) : Input := ⟨rest, taken.foldl Position.after i.place⟩

/-- A defect where the input stands. -/
def fail {α : Type} (i : Input) (d : Defect) : Except Fault α := .error ⟨d, i.place⟩

/-- A defect of the next byte. -/
def failNext {α : Type} (i : Input) (d : Defect) : Except Fault α := .error ⟨d, i.place.peek i.rest⟩

/-- White space between the tokens of JSON. -/
def isSpace (c : Char) : Bool := c = ' ' || c = '\n' || c = '\t' || c = '\r'

/-- Passes over white space. -/
def skipSpace (i : Input) : Input := i.pass (i.rest.takeWhile isSpace) (i.rest.dropWhile isSpace)

/-- Passes over one character. -/
def skip (i : Input) : Input :=
  match i.rest with
  | [] => i
  | c :: rest => ⟨rest, i.place.after c⟩

end Input

/-! ## Words -/

/-- Reads the remaining letters of a word. -/
def word (expected : Text) (i : Input) : Except Fault (Unit × Input) :=
  match expected, i.rest with
  | [], _ => .ok ((), i)
  | _ :: _, [] => i.fail .endInValue
  | w :: ws, c :: _ => if c = w then word ws i.skip else i.failNext .expectedWord

/-! ## Numbers -/

/-- A number as it is read: an integer, or a double by a significand and an exponent of ten. -/
inductive Numeral where
  | int (n : Int)
  | decimal (negative : Bool) (significand : Nat) (exponent : Int)
deriving DecidableEq, Repr

/-- The greatest significand that is kept while digits are read. -/
def maxSignificand : Nat := 18446744073709551615

/-- The value of the next character, if it is a digit. -/
def nextDigit? (i : Input) : Option Nat := i.rest.head?.bind Text.digit?

/-- Passes over digits, and counts them. -/
def skipDigits (i : Input) : Nat × Input :=
  let digits := i.rest.takeWhile fun c => (Text.digit? c).isSome
  (digits.length, i.pass digits (i.rest.drop digits.length))

/-- Reads digits into a significand until the next one would make it too large; the number of digits
    read. -/
def significandDigits : (fuel : Nat) → (significand count : Nat) → Input → Nat × Nat × Input
  | 0, significand, count, i => (significand, count, i)
  | fuel + 1, significand, count, i =>
    match nextDigit? i with
    | none => (significand, count, i)
    | some d =>
      if maxSignificand < significand * 10 + d then (significand, count, i)
      else significandDigits fuel (significand * 10 + d) (count + 1) i.skip

/-- Reads the sign of an exponent, if there is one: whether it is negative. -/
def exponentSign (i : Input) : Bool × Input :=
  match i.rest with
  | '+' :: _ => (false, i.skip)
  | '-' :: _ => (true, i.skip)
  | _ => (false, i)

/-- Reads the exponent after `e`, if there is one. An exponent beyond 32 bits is that of zero or of
    infinity. -/
def exponentPart (negative : Bool) (significand : Nat) (exponent : Int) (i : Input) :
    Except Fault (Numeral × Input) :=
  match i.rest with
  | 'e' :: _ | 'E' :: _ =>
    let (down, i) := exponentSign i.skip
    match i.rest with
    | [] => i.fail .endInValue
    | c :: _ =>
      if (Text.digit? c).isNone then i.failNext .invalidNumber
      else
        let digits := i.rest.takeWhile fun c => (Text.digit? c).isSome
        match exponentDigits 0 digits with
        | .inl size =>
          .ok (.decimal negative significand (exponent + if down then -(size : Int) else size),
            (skipDigits i).2)
        | .inr passed =>
          if significand ≠ 0 ∧ !down then
            (i.pass (digits.take passed) (i.rest.drop passed)).fail .numberOutOfRange
          else .ok (.decimal negative 0 0, (skipDigits i).2)
  | _ => .ok (.decimal negative significand exponent, i)
where
  /-- The size of an exponent, or the number of digits after which it is beyond 32 bits. -/
  exponentDigits (size : Nat) : Text → Nat ⊕ Nat
    | [] => .inl size
    | c :: cs =>
      let size := size * 10 + (Text.digit? c).getD 0
      if 2147483647 < size then .inr 1
      else
        match exponentDigits size cs with
        | .inl size => .inl size
        | .inr passed => .inr (passed + 1)

/-- Reads the digits after a point. Digits beyond the greatest significand are passed over. -/
def fractionPart (negative : Bool) (significand : Nat) (exponent : Int) (i : Input) :
    Except Fault (Numeral × Input) :=
  let (significand, count, i) := significandDigits i.rest.length significand 0 i
  if count = 0 ∧ (nextDigit? i).isNone then
    match i.rest with
    | [] => i.fail .endInValue
    | _ :: _ => i.failNext .invalidNumber
  else exponentPart negative significand (exponent - count) (skipDigits i).2

/-- Reads what follows the digits before a point, of which `dropped` were too many for the
    significand. -/
def numberTail (negative : Bool) (significand dropped : Nat) (i : Input) :
    Except Fault (Numeral × Input) :=
  match i.rest with
  | '.' :: _ => fractionPart negative significand dropped i.skip
  | 'e' :: _ | 'E' :: _ => exponentPart negative significand dropped i
  | _ =>
    if 0 < dropped then .ok (.decimal negative significand dropped, i)
    else if !negative then .ok (.int significand, i)
    else if 0 < significand ∧ significand ≤ twoTo 63 then .ok (.int (-significand), i)
    else .ok (.decimal true significand 0, i)

/-- Reads a number whose sign has been read. -/
def unsignedNumber (negative : Bool) (i : Input) : Except Fault (Numeral × Input) :=
  match i.rest with
  | [] => i.fail .endInValue
  | c :: _ =>
    match Text.digit? c with
    | none => i.failNext .invalidNumber
    | some 0 =>
      let i := i.skip
      if (nextDigit? i).isSome then i.failNext .invalidNumber
      else numberTail negative 0 0 i
    | some _ =>
      let (significand, _, i) := significandDigits i.rest.length 0 0 i
      let (dropped, i) := skipDigits i
      numberTail negative significand dropped i

/-- The double of a significand and an exponent of ten; none if it is too large. At most `fuel`
    divisions bring the exponent into the range of the powers of ten. -/
def decimalValue? (fuel : Nat) (x : Float) (exponent : Int) : Option Float :=
  if exponent.natAbs ≤ 308 then
    if 0 ≤ exponent then
      let y := x * powerOfTen exponent.natAbs
      if y.isInf then none else some y
    else some (x / powerOfTen exponent.natAbs)
  else if x == 0 then some x
  else if 0 ≤ exponent then none
  else
    match fuel with
    | 0 => some 0
    | fuel + 1 => decimalValue? fuel (x / powerOfTen 308) (exponent + 308)

/-- Reads a number whose sign has been read, as a value. Three divisions make any significand
    zero. -/
def number (negative : Bool) (i : Input) : Except Fault (Json × Input) := do
  let (numeral, i) ← unsignedNumber negative i
  match numeral with
  | .int n => pure (.int n, i)
  | .decimal negative significand exponent =>
    match decimalValue? 3 (UInt64.ofNat significand).toFloat exponent with
    | some x => pure (.float (if negative then -x else x), i)
    | none => i.fail .numberOutOfRange

/-! ## Strings -/

/-- The value of a hexadecimal digit. -/
def hexDigit? (c : Char) : Option Nat :=
  if '0' ≤ c ∧ c ≤ '9' then some (c.toNat - '0'.toNat)
  else if 'a' ≤ c ∧ c ≤ 'f' then some (c.toNat - 'a'.toNat + 10)
  else if 'A' ≤ c ∧ c ≤ 'F' then some (c.toNat - 'A'.toNat + 10)
  else none

/-- Reads four hexadecimal digits. -/
def hexQuad (i : Input) : Except Fault (Nat × Input) :=
  if Text.utf8Size i.rest < 4 then
    (i.pass i.rest []).fail .endInString
  else
    match (i.rest.take 4).mapM hexDigit? with
    | some digits =>
      .ok (digits.foldl (fun n d => n * 16 + d) 0, i.pass (i.rest.take 4) (i.rest.drop 4))
    | none => .error ⟨.invalidEscape, i.place.afterBytes 4 i.rest⟩

/-- Reads the second half of a surrogate pair, with its escape. -/
def lowSurrogate (high : Nat) (i : Input) : Except Fault (Char × Input) :=
  match i.rest with
  | [] => i.fail .endInString
  | '\\' :: _ =>
    let i := i.skip
    match i.rest with
    | [] => i.fail .endInString
    | 'u' :: _ => do
      let (low, i) ← hexQuad i.skip
      if 0xDC00 ≤ low ∧ low ≤ 0xDFFF then
        pure (Char.ofNat ((high - 0xD800) * 0x400 + (low - 0xDC00) + 0x10000), i)
      else i.fail .loneSurrogate
    | _ :: _ => i.failNext .unfinishedSurrogate
  | _ :: _ => i.failNext .unfinishedSurrogate

/-- Reads a character by its code after `\u`. -/
def codeEscape (i : Input) : Except Fault (Char × Input) := do
  let (n, i) ← hexQuad i
  if 0xDC00 ≤ n ∧ n ≤ 0xDFFF then i.fail .loneSurrogate
  else if 0xD800 ≤ n ∧ n ≤ 0xDBFF then lowSurrogate n i
  else pure (Char.ofNat n, i)

/-- Reads an escape after its backslash. -/
def escape (i : Input) : Except Fault (Char × Input) :=
  match i.rest with
  | [] => i.fail .endInString
  | '"' :: _ => .ok ('"', i.skip)
  | '\\' :: _ => .ok ('\\', i.skip)
  | '/' :: _ => .ok ('/', i.skip)
  | 'b' :: _ => .ok ('\x08', i.skip)
  | 'f' :: _ => .ok ('\x0c', i.skip)
  | 'n' :: _ => .ok ('\n', i.skip)
  | 'r' :: _ => .ok ('\r', i.skip)
  | 't' :: _ => .ok ('\t', i.skip)
  | 'u' :: _ => codeEscape i.skip
  | _ :: _ => i.failNext .invalidEscape

/-- Reads the rest of a string after its opening quote, at most `fuel` characters, behind the
    reversed text `before`. -/
def stringFrom : (fuel : Nat) → (before : Text) → Input → Except Fault (Text × Input)
  | 0, _, i => i.fail .endInString
  | fuel + 1, before, i =>
    match i.rest with
    | [] => i.fail .endInString
    | '"' :: _ => .ok (before.reverse, i.skip)
    | '\\' :: _ => do
      let (c, i) ← escape i.skip
      stringFrom fuel (c :: before) i
    | c :: _ =>
      if c.toNat < 0x20 then i.failNext .controlCharacter
      else stringFrom fuel (c :: before) i.skip

/-- Reads the rest of a string after its opening quote. -/
def string (i : Input) : Except Fault (Text × Input) := stringFrom (i.rest.length + 1) [] i

/-! ## Arrays and objects -/

/-- Reads the items of an array and its closing bracket, at most `fuel` items, behind the reversed
    items `before`. -/
def items (item : Input → Except Fault (Json × Input)) :
    (fuel : Nat) → (before : List Json) → Input → Except Fault (Json × Input)
  | 0, _, i => i.fail .endInList
  | fuel + 1, before, i =>
    let i := i.skipSpace
    match i.rest with
    | [] => i.failNext .endInList
    | c :: _ =>
      if c = ']' then .ok (.arr before.reverse, i.skip)
      else if before.isEmpty then do
        let (v, i) ← item i
        items item fuel [v] i
      else if c = ',' then
        let i := i.skip.skipSpace
        match i.rest with
        | [] => i.failNext .endInValue
        | ']' :: _ => i.failNext .trailingComma
        | _ :: _ => do
          let (v, i) ← item i
          items item fuel (v :: before) i
      else i.failNext .expectedListSeparator

/-- Reads a member of an object: a key, a colon and a value. -/
def member (item : Input → Except Fault (Json × Input)) (i : Input) :
    Except Fault ((Text × Json) × Input) := do
  let (key, i) ← string i.skip
  let i := i.skipSpace
  match i.rest with
  | ':' :: _ =>
    let (v, i) ← item i.skip
    pure ((key, v), i)
  | [] => i.failNext .endInObject
  | _ :: _ => i.failNext .expectedColon

/-- Reads the members of an object and its closing brace, at most `fuel` members, after the members
    `before`; `first` tells that there was none yet. -/
def members (item : Input → Except Fault (Json × Input)) :
    (fuel : Nat) → (first : Bool) → (before : Members) → Input → Except Fault (Json × Input)
  | 0, _, _, i => i.fail .endInObject
  | fuel + 1, first, before, i =>
    let i := i.skipSpace
    match i.rest with
    | [] => i.failNext .endInObject
    | '}' :: _ => .ok (.obj before, i.skip)
    | c :: _ =>
      if c = ',' ∧ !first then
        let i := i.skip.skipSpace
        match i.rest with
        | [] => i.failNext .endInValue
        | '"' :: _ => do
          let ((key, v), i) ← member item i
          members item fuel false (before.put key v) i
        | '}' :: _ => i.failNext .trailingComma
        | _ :: _ => i.failNext .keyNotString
      else if !first then i.failNext .expectedObjectSeparator
      else if c = '"' then do
        let ((key, v), i) ← member item i
        members item fuel false (before.put key v) i
      else i.failNext .keyNotString

/-- Reads a value. Its arrays and objects may be nested `depth` deep. -/
def value : (depth : Nat) → Input → Except Fault (Json × Input)
  | depth, i =>
    let i := i.skipSpace
    match i.rest with
    | [] => i.failNext .endInValue
    | 'n' :: _ => do let (_, i) ← word ['u', 'l', 'l'] i.skip; pure (.null, i)
    | 't' :: _ => do let (_, i) ← word ['r', 'u', 'e'] i.skip; pure (.bool true, i)
    | 'f' :: _ => do let (_, i) ← word ['a', 'l', 's', 'e'] i.skip; pure (.bool false, i)
    | '-' :: _ => number true i.skip
    | '"' :: _ => do let (t, i) ← string i.skip; pure (.str t, i)
    | '[' :: _ =>
      match depth with
      | 0 => i.failNext .tooDeep
      | depth + 1 => items (value depth) (i.rest.length + 1) [] i.skip
    | '{' :: _ =>
      match depth with
      | 0 => i.failNext .tooDeep
      | depth + 1 => members (value depth) (i.rest.length + 1) true [] i.skip
    | c :: _ => if (Text.digit? c).isSome then number false i else i.failNext .expectedValue

/-- How deep arrays and objects may be nested. -/
def maxDepth : Nat := 127

/-- Reads a text that holds one value. -/
def parse (t : Text) : Except Fault Json := do
  let (v, i) ← value maxDepth ⟨t, .start⟩
  let i := i.skipSpace
  match i.rest with
  | [] => pure v
  | _ :: _ => i.failNext .trailingCharacters

end Recordsmith.Json
