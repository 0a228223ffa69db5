import Recordsmith.Argument
import Recordsmith.Calendar.Sample
import Recordsmith.Function
import Recordsmith.Number.Rounding
import Recordsmith.Template
import Recordsmith.Text.Casing
import Recordsmith.Walk

/-!
# Evaluating leaves

A leaf text is a call, a keyword, or literal text. A call or a keyword that cannot be carried out
stays as it is written, and the report counts it.

* `Function.apply` carries out a call, with a function `self` for the texts and templates inside it;
* `evaluateStep` evaluates a text, given `self`;
* `evaluateText` ties the knot: texts inside a text have a smaller `weight`, so that a depth of the
  weight of the text suffices;
* `evaluateLeaf` evaluates a leaf of a template.
-/

namespace Recordsmith

open Text (stripQuotes)

variable {σ : Type} [WordSource σ]

/-- A computation that may fail for a cause in the call. -/
abbrev Attempt (σ : Type) := ExceptT Failure (Gen σ)

namespace Attempt

/-- Draws from the random source. -/
def draw {α : Type} (d : StateM σ α) : Attempt σ α := ExceptT.lift (Gen.draw d)

/-- Draws from the random source, with a draw that may fail. -/
def drawChecked {α : Type} (d : StateM σ (Except Failure α)) : Attempt σ α :=
  ExceptT.mk (Gen.draw d)

/-- The outcome of an operation that can also break the worker down: for the faults that are no
    failures. -/
def ofChecked {ε α : Type} (failure? : ε → Option Failure) : Except ε α → Attempt σ α
  | .ok a => pure a
  | .error fault =>
    match failure? fault with
    | some failure => throw failure
    | none => ExceptT.lift Gen.crash

/-- The outcome of a step of time. A start whose clocks are out of range breaks the worker down. -/
def ofStep {α : Type} (failure : Failure) : Except StepFault α → Attempt σ α :=
  ofChecked fun
    | .outOfRange => some failure
    | .readingOutOfRange => none

/-- The outcome of reading an offset. An offset that no word has breaks the worker down. -/
def ofOffset {α : Type} : Except OffsetFault α → Attempt σ α :=
  ofChecked fun
    | .refused failure => some failure
    | .overflow => none

end Attempt

/-! ## Literals -/

/-- A text that stands for itself. -/
def literalValue (t : Text) : Value := .text (stripQuotes t)

/-- A choice: quoted text is text; otherwise Booleans, doubles with a point and integers are
    recognised, and all else is text. -/
def choiceValue (raw : Text) : Value :=
  let raw := Text.trim raw
  if Text.isQuoted raw then literalValue raw
  else if Text.eqIgnoringCase raw "true".toList then .bool true
  else if Text.eqIgnoringCase raw "false".toList then .bool false
  else if raw.contains '.' then
    match readReal raw with
    | .ok x => .double x
    | .error _ => literalValue raw
  else
    match readInteger .int64 raw with
    | .ok n => .long n
    | .error _ => literalValue raw

/-! ## Numbers and texts -/

/-- The failure of an argument of a call. -/
def Call.failure (c : Call) (fault : ArgumentFault) : Failure := .argument c.name fault

namespace Function

/-- The bounds of a number: one argument is the lower one, two are both, any other number of
    arguments leaves the defaults. -/
def bounds {α : Type} (read : (function raw : Text) → Except Failure α) (low high : α) (c : Call) :
    Except Failure (α × α) :=
  match c.arguments.length with
  | 1 => do pure ((← c.number? read 0).getD low, high)
  | 2 => do
    let min ← c.number? read 0
    let max ← c.number? read 1
    pure (min.getD low, max.getD high)
  | _ => .ok (low, high)

/-- An integer from `min` up to but without `max`, by 32-bit words. -/
def drawInt (min max : Int) : StateM σ (Except Failure Int) :=
  if max ≤ min then pure (.error (.argument "int".toList .emptyRange))
  else do pure (.ok (← Draw.between32 min (max - 1)))

/-- An integer from `min` up to but without `max`, by 64-bit words. -/
def drawLong (min max : Int) : StateM σ (Except Failure Int) :=
  if max ≤ min then pure (.error (.argument "long".toList .emptyRange))
  else do pure (.ok (← Draw.between64 min (max - 1)))

/-- A double from `min` to `max` with four decimal places. A range that is too wide gives a value
    that is not finite. -/
def drawDouble (min max : Float) : StateM σ (Except Failure Float) :=
  if !min.isFinite || !max.isFinite || max < min then
    pure (.error (.argument "double".toList .unboundedRange))
  else do
    let scaled := (← Draw.unit) * (max - min)
    pure (.ok (roundPlaces (scaled + min) 4))

/-- The greatest double. -/
def greatestDouble : Float := Float.ofBits 0x7FEFFFFFFFFFFFFF

/-- A random double. -/
def applyDouble (c : Call) : Attempt σ Value := do
  let (min, max) ← bounds readRealArgument 0 greatestDouble c
  let x ← Attempt.drawChecked (drawDouble min max)
  if x.isFinite then pure (.double x)
  else
    pure (.unsupported ("double range [".toList ++ Layout.plain.render min ++ ", ".toList ++
      Layout.plain.render max ++ ") overflows".toList))

/-- The length of a text, unless the call tells another. -/
def defaultLength : Int := 20

/-- A random text of the characters of a set. -/
def applyLetters (set : Text) (c : Call) : Attempt σ Value := do
  let length := ((← c.number? (readIntegerArgument .word64) 0).getD defaultLength).toNat
  if maxBytes < length then ExceptT.lift Gen.crash
  else pure (.text (← Attempt.draw (Draw.letters set length)))

/-! ## Dates -/

/-- The zone of a name. -/
def zone (name : Text) : Except Failure Zone :=
  match Zone.named? name with
  | some z => .ok z
  | none => .error (.unknownZone name)

/-- The unit that an argument names; seconds if it is absent. -/
def timeUnit (c : Call) (index : Nat) : Except Failure TimeUnit :=
  match c.text? index with
  | some name => TimeUnit.read name
  | none => .ok .second

/-- A random date in the form of a pattern. -/
def applySample (now : Moment) (source : Text) (c : Call) : Attempt σ Value := do
  let p ← Pattern.compile source
  pure (.text (← Attempt.drawChecked (p.sample now (c.arguments.map stripQuotes))))

/-- The date at an offset from the present: offset, pattern, zone and unit. -/
def applyDateOffset (now : Moment) (c : Call) : Attempt σ Value := do
  let offset ← c.requiredText 0 "offset"
  let p ← Pattern.compile (← c.requiredText 1 "pattern")
  let zone ← zone (← c.requiredText 2 "zone")
  let unit ← timeUnit c 3
  let amount := (← Attempt.ofOffset (readNowOffset c.name offset)).getD 0
  let z ← Attempt.ofStep (c.failure (.offsetOutOfRange offset)) (unit.shift ⟨now, zone⟩ amount)
  pure (.text (p.render z))

/-- Where a date sequence would like to start: at an offset from the present, or at a date. -/
def candidate (c : Call) (p : Pattern) (unit : TimeUnit) (now : Zoned) (start : Text) :
    Attempt σ (Option Zoned) := do
  match ← Attempt.ofOffset (readNowOffset c.name start) with
  | some offset =>
    if offset = 0 then pure none
    else some <$> Attempt.ofStep (c.failure (.offsetOutOfRange start)) (unit.shift now offset)
  | none =>
    let reading ← p.parse start
    match Zoned.ofReading? now.zone reading with
    | some z => pure (some z)
    | none => throw (c.failure (.noSuchReading start now.zone.name))

/-- The next date of the cursor: start, an argument that is not used, pattern, zone and unit. -/
def applyDateSequence (now : Moment) (c : Call) : Attempt σ Value := do
  let start ← c.requiredText 0 "start"
  let p ← Pattern.compile (← c.requiredText 2 "pattern")
  let zone ← zone (← c.requiredText 3 "zone")
  let unit ← timeUnit c 4
  let candidate ← candidate c p unit ⟨now, zone⟩ start
  let r ← ExceptT.lift (Gen.nextDate ⟨⟨now, zone⟩, candidate, unit, 1⟩)
  let z ← Attempt.ofStep (.argument "datetime_seq".toList .cursorOutOfRange) r
  pure (.text (p.render z))

end Function

/-! ## Leaves -/

/-- Evaluates a leaf of a template, given how texts are evaluated. -/
def evaluateLeafWith (self : Text → Gen σ Value) : Json → Gen σ Value
  | .null => pure .null
  | .bool b => pure (.bool b)
  | .int n =>
    pure (if -2147483648 ≤ n ∧ n ≤ 2147483647 then .int n
      else if n ≤ 9223372036854775807 then .long n else .unsignedLong n)
  | .float x => pure (.double x)
  | .str t => self t
  | .arr _ | .obj _ => pure (.unsupported "composite value in leaf position".toList)

namespace Function

/-! ## Texts and templates inside calls -/

/-- A template inside a call: its members, the number of records that are made of it, and the
    repetition of arrays, if the call tells one. -/
structure InlineTemplate where
  members : Json.Members
  count : Nat
  nested : Option Nat

/-- Reads a template inside a call. If it cannot be read as it is written, it is read without its
    backslashes. -/
def readInline (body : Text) : Except Failure Json :=
  match Template.parse body with
  | .ok template => .ok template
  | .error _ => Template.parse (body.filter (· ≠ '\\'))

/-- The template inside a call, which must be an object. -/
def inlineArguments (c : Call) : Except Failure InlineTemplate :=
  match c.argument? 0 with
  | none => .error (c.failure .noInlineTemplate)
  | some body => do
    match ← readInline body with
    | .obj members =>
      let count := ((← c.number? (readIntegerArgument .word64) 1).getD 1).toNat
      let nested := (← c.number? (readIntegerArgument .word64) 2).map Int.toNat
      pure ⟨members, count, nested⟩
    | _ => .error (c.failure .inlineNotObject)

/-- The first record of a template inside a call. -/
def applyInline (self : Text → Gen σ Value) (c : Call) : Attempt σ Value := do
  let ⟨members, count, nested⟩ ← inlineArguments c
  let outer := (← ExceptT.lift (get : Gen σ (Local σ))).nested
  let lines ← ExceptT.lift (Gen.withNested (nested.getD outer)
    (Walk.events (evaluateLeafWith self) (.obj members) count))
  match lines with
  | line :: _ => pure (.text line)
  | [] => throw (c.failure .inlineCountZero)

/-- One part of a concatenation: the words for a blank and for a comma, or a text. -/
def part (self : Text → Gen σ Value) (t : Text) : Gen σ Text :=
  if t = "SPACE".toList then pure [' ']
  else if t = "COMMA".toList then pure [',', ' ']
  else do pure (← self t).display

/-- The parts of a concatenation, from left to right. -/
def parts (self : Text → Gen σ Value) : List Text → Gen σ Text
  | [] => pure []
  | t :: rest => do
    let head ← part self t
    let tail ← parts self rest
    pure (head ++ tail)

/-- Carries out a call. -/
def apply (now : Moment) (self : Text → Gen σ Value) (f : Function) (c : Call) :
    Attempt σ Value :=
  match f with
  | choice => do
    match ← Attempt.draw (Draw.choose (c.arguments.map choiceValue)) with
    | some v => pure v
    | none => throw (c.failure .noChoice)
  | inlineTemplate => applyInline self c
  | int => do
    let (min, max) ← bounds (readIntegerArgument .int32) 0 2147483647 c
    pure (.int (← Attempt.drawChecked (drawInt min max)))
  | long => do
    let (min, max) ← bounds (readIntegerArgument .int64) 0 9223372036854775807 c
    pure (.long (← Attempt.drawChecked (drawLong min max)))
  | double => applyDouble c
  | dateSequence => applyDateSequence now c
  | dateOffset => applyDateOffset now c
  | dateTime => applySample now Pattern.dashedDateTime c
  | date => applySample now Pattern.dashedDate c
  | isoDateTime => applySample now Pattern.iso c
  | alpha => applyLetters Draw.alphabet c
  | alphanumeric => applyLetters Draw.alphabetAndDigits c
  | quoted => do
    let v ← ExceptT.lift (self c.inner)
    pure (.text ('"' :: (v.display ++ ['"'])))
  | concat => do pure (.text (← ExceptT.lift (parts self c.arguments)))
  | sequence => do
    let seed ← c.number? (readIntegerArgument .int64) 0
    pure (.long (← ExceptT.lift (Gen.nextNumber seed)))
  | upper => do
    let v ← ExceptT.lift (self c.inner)
    pure (.text (Text.upper v.display))
  | lower => do
    let v ← ExceptT.lift (self c.inner)
    pure (.text (Text.lower v.display))
  | uuid => do pure (.text (← Attempt.draw Draw.uuid))
  | bool => do pure (.bool (← Attempt.draw Draw.coin))

end Function

/-! ## Texts -/

/-- Carries out the call that a text stands for, and counts its use. -/
def invoke (now : Moment) (self : Text → Gen σ Value) (f : Function) (c : Call) (t : Text) :
    Gen σ Value := do
  Gen.note (Report.recordUse c.name)
  match ← (f.apply now self c).run with
  | .ok v => pure v
  | .error _ => do
    Gen.note Report.recordFallback
    pure (literalValue t)

/-- Evaluates a text, given how the texts inside it are evaluated. -/
def evaluateStep (now : Moment) (self : Text → Gen σ Value) (t : Text) : Gen σ Value :=
  if t.contains '(' then
    match Call.parse? t with
    | none => pure (literalValue t)
    | some c =>
      match Function.named? c.name with
      | none => pure (literalValue t)
      | some f => invoke now self f c t
  else
    let word := stripQuotes t
    match Function.ofKeyword? word with
    | none => pure (literalValue t)
    | some f => invoke now self f (.bare word) t

/-- Evaluates a text with texts inside each other up to a depth; a text beyond it is literal. -/
def evaluateToDepth (now : Moment) : (depth : Nat) → Text → Gen σ Value
  | 0, t => pure (literalValue t)
  | depth + 1, t => evaluateStep now (evaluateToDepth now depth) t

/-- The characters that neither open a call nor can be part of a time that replaces a token. -/
def weighs (c : Char) : Bool := !(c.isDigit || c == '+' || c == '-' || c == ':' || c == '.')

/-- The number of characters of a text that weigh. -/
def weight (t : Text) : Nat := t.countP weighs

/-- Evaluates a text. -/
def evaluateText (now : Moment) (t : Text) : Gen σ Value := evaluateToDepth now (weight t + 1) t

/-- Evaluates a leaf of a template. -/
def evaluateLeaf (now : Moment) : Json → Gen σ Value := evaluateLeafWith (evaluateText now)

end Recordsmith
