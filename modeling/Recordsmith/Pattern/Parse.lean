import Recordsmith.Pattern.Format
import Recordsmith.Calendar.Moment

/-!
# Reading dates

A text is read in two steps. The items of a pattern collect the parts that the text shows in
`DateParts`, where a part that is shown twice must agree with itself. Then the parts are resolved to
a date, and to a time of day.

* `DateParts.readItems` collects the parts;
* `DateParts.date`, `DateParts.clock` resolve them;
* `Pattern.parse` reads a text as a moment, or as a date at midnight if there is no moment in it.
-/

namespace Recordsmith

/-! ## Parts -/

/-- The parts of a date and a time that a text has shown. -/
structure DateParts where
  year : Option Int := none
  yearOfCentury : Option Int := none
  month : Option Int := none
  day : Option Int := none
  dayOfYear : Option Int := none
  /-- Monday is 0. -/
  weekday : Option Int := none
  /-- 0 before noon, 1 after it. -/
  half : Option Int := none
  hourOfHalf : Option Int := none
  minute : Option Int := none
  second : Option Int := none
  nano : Option Int := none
  offset : Option Int := none
deriving DecidableEq

/-- Sets a part, which must not have been shown with another value. -/
def setPart (part : Option Int) (value : Int) : Except DateFault (Option Int) :=
  match part with
  | none => .ok (some value)
  | some old => if old = value then .ok (some value) else .error .impossible

/-- A value, provided that it lies in an interval. -/
def partWithin (low high value : Int) : Except DateFault Int :=
  if low ≤ value ∧ value ≤ high then .ok value else .error .outOfRange

namespace DateParts

/-- Sets the hour of the half day, and the half if it is known. -/
def setHour (parts : DateParts) (half : Option Int) (hour : Int) : Except DateFault DateParts := do
  let half ←
    match half with
    | none => pure parts.half
    | some half => setPart parts.half half
  let hourOfHalf ← setPart parts.hourOfHalf hour
  pure { parts with half, hourOfHalf }

/-- Sets the part that a number shows. -/
def setNumber (parts : DateParts) (f : Field) (value : Int) : Except DateFault DateParts :=
  match f with
  | .year => do
    let value ← partWithin (-2147483648) 2147483647 value
    pure { parts with year := ← setPart parts.year value }
  | .yearOfCentury => do
    let value ← partWithin 0 99 value
    pure { parts with yearOfCentury := ← setPart parts.yearOfCentury value }
  | .month _ => do
    let value ← partWithin 1 12 value
    pure { parts with month := ← setPart parts.month value }
  | .day _ => do
    let value ← partWithin 1 31 value
    pure { parts with day := ← setPart parts.day value }
  | .dayOfYear => do
    let value ← partWithin 1 366 value
    pure { parts with dayOfYear := ← setPart parts.dayOfYear value }
  | .hour _ => do
    let value ← partWithin 0 23 value
    parts.setHour (some (value / 12)) (value % 12)
  | .hourOfHalf _ => do
    let value ← partWithin 1 12 value
    parts.setHour none (value % 12)
  | .minute _ => do
    let value ← partWithin 0 59 value
    pure { parts with minute := ← setPart parts.minute value }
  | .second _ => do
    let value ← partWithin 0 60 value
    pure { parts with second := ← setPart parts.second value }
  | .milliseconds | .microseconds | .nanoseconds => do
    let value ← partWithin 0 999999999 value
    pure { parts with nano := ← setPart parts.nano value }
  | _ => pure parts

end DateParts

/-! ## Reading parts of a text -/

/-- Reads at most `width` digits after the value `n`, which must fit a 64-bit word. -/
def readDateDigits : (width : Nat) → (n : Nat) → Text → Except DateFault (Nat × Text)
  | 0, n, t => .ok (n, t)
  | _ + 1, n, [] => .ok (n, [])
  | width + 1, n, c :: cs =>
    match Text.digit? c with
    | none => .ok (n, c :: cs)
    | some d =>
      if 9223372036854775807 < n * 10 + d then .error .outOfRange
      else readDateDigits width (n * 10 + d) cs

/-- Reads at least one digit, and at most `width`. -/
def readDateNumber (width : Nat) (t : Text) : Except DateFault (Nat × Text) :=
  match t with
  | [] => .error .tooShort
  | c :: _ => if (Text.digit? c).isSome then readDateDigits width 0 t else .error .invalid

/-- Reads a year: four digits at most, or a sign and any number of digits. -/
def readDateYear (t : Text) : Except DateFault (Int × Text) :=
  match t with
  | '-' :: t => (readDateNumber t.length t).map fun (n, t) => (-n, t)
  | '+' :: t => (readDateNumber t.length t).map fun (n, t) => (n, t)
  | t => (readDateNumber 4 t).map fun (n, t) => (n, t)

/-- Reads exactly `width` digits. -/
def readDateFraction (width : Nat) (t : Text) : Except DateFault (Nat × Text) :=
  if Text.utf8Size t < width then .error .tooShort
  else do
    let (n, rest) ← readDateNumber width t
    if t.length - rest.length = width then pure (n, rest) else .error .invalid

/-- Reads a text that must stand there exactly. -/
def readDateLiteral (literal t : Text) : Except DateFault Text :=
  if Text.utf8Size t < Text.utf8Size literal then .error .tooShort
  else
    match Text.dropWord? literal t with
    | some rest => .ok rest
    | none => .error .invalid

/-- What follows `word` at the start of a text, the case of ASCII letters apart. -/
def dropWordAnyCase? (word t : Text) : Option Text :=
  if Text.eqIgnoringCase (t.take word.length) word then some (t.drop word.length) else none

/-- Reads the first three letters of a name of a list, in any case; the index of the name. -/
def readShortName (names : List String) (t : Text) : Except DateFault (Nat × Text) :=
  if Text.utf8Size t < 3 then .error .tooShort
  else
    match names.findIdx? fun name => (dropWordAnyCase? (name.toList.take 3) t).isSome with
    | some index => .ok (index, t.drop 3)
    | none => .error .invalid

/-- Reads the first three letters of a name of a list, and the rest of the name if it is there. -/
def readName (names : List String) (t : Text) : Except DateFault (Nat × Text) := do
  let (index, rest) ← readShortName names t
  pure (index, (dropWordAnyCase? ((nameAt names index).drop 3) rest).getD rest)

/-- Reads the half of a day. -/
def readHalf (t : Text) : Except DateFault (Nat × Text) :=
  if Text.utf8Size t < 2 then .error .tooShort
  else
    match dropWordAnyCase? ['a', 'm'] t, dropWordAnyCase? ['p', 'm'] t with
    | some rest, _ => .ok (0, rest)
    | none, some rest => .ok (1, rest)
    | none, none => .error .invalid

/-- Reads two digits of an offset. -/
def readOffsetPair (t : Text) : Except DateFault (Nat × Nat × Text) :=
  if Text.utf8Size t < 2 then .error .tooShort
  else
    match t with
    | c :: d :: rest =>
      match Text.digit? c, Text.digit? d with
      | some m, some n => .ok (m, n, rest)
      | _, _ => .error .invalid
    | _ => .error .invalid

/-- Reads the hours and minutes of an offset, in seconds. -/
def readOffsetSize (t : Text) : Except DateFault (Nat × Text) := do
  let (m, n, t) ← readOffsetPair t
  let (k, l, t) ← readOffsetPair (t.dropWhile fun c => c = ':' || Text.isBlank c)
  if 6 ≤ k then .error .outOfRange else pure ((m * 10 + n) * 3600 + (k * 10 + l) * 60, t)

/-- Reads an offset, in seconds. The minus sign may be a hyphen or the mathematical sign. -/
def readOffset (t : Text) : Except DateFault (Int × Text) :=
  match Text.trimStart t with
  | [] => .error .tooShort
  | c :: t =>
    if c = '+' then (readOffsetSize t).map fun (n, t) => (n, t)
    else if c = '-' ∨ c = '\u2212' then (readOffsetSize t).map fun (n, t) => (-n, t)
    else .error .invalid

/-! ## Collecting parts -/

namespace DateParts

/-- Reads one field from the start of a text. -/
def readField (parts : DateParts) (f : Field) (t : Text) : Except DateFault (DateParts × Text) :=
  match f with
  | .year => do
    let (n, t) ← readDateYear (Text.trimStart t)
    pure (← parts.setNumber f n, t)
  | .yearOfCentury | .month _ | .day _ | .hour _ | .hourOfHalf _ | .minute _ | .second _ => do
    let (n, t) ← readDateNumber 2 (Text.trimStart t)
    pure (← parts.setNumber f n, t)
  | .dayOfYear => do
    let (n, t) ← readDateNumber 3 (Text.trimStart t)
    pure (← parts.setNumber f n, t)
  | .milliseconds => do
    let (n, t) ← readDateFraction 3 t
    pure (← parts.setNumber f (n * 1000000), t)
  | .microseconds => do
    let (n, t) ← readDateFraction 6 t
    pure (← parts.setNumber f (n * 1000), t)
  | .nanoseconds => do
    let (n, t) ← readDateFraction 9 t
    pure (← parts.setNumber f n, t)
  | .monthAbbreviated => do
    let (index, t) ← readShortName monthNames t
    pure ({ parts with month := ← setPart parts.month (index + 1) }, t)
  | .monthName => do
    let (index, t) ← readName monthNames t
    pure ({ parts with month := ← setPart parts.month (index + 1) }, t)
  | .weekdayAbbreviated => do
    let (index, t) ← readShortName weekdayNames t
    pure ({ parts with weekday := ← setPart parts.weekday index }, t)
  | .weekdayName => do
    let (index, t) ← readName weekdayNames t
    pure ({ parts with weekday := ← setPart parts.weekday index }, t)
  | .half => do
    let (half, t) ← readHalf t
    pure ({ parts with half := ← setPart parts.half half }, t)
  | .offset | .offsetWithColon => do
    let (offset, t) ← readOffset t
    pure ({ parts with offset := ← setPart parts.offset offset }, t)
  | .zoneAbbreviation => pure (parts, t.dropWhile fun c => !Text.isBlank c)

/-- Reads the items of a pattern; nothing may be left of the text. -/
def readItems (parts : DateParts) : List Item → Text → Except DateFault DateParts
  | [], [] => .ok parts
  | [], _ :: _ => .error .tooLong
  | .field f :: items, t => do
    let (parts, t) ← parts.readField f t
    readItems parts items t
  | .literal literal :: items, t => do readItems parts items (← readDateLiteral literal t)
  | .percent :: items, t => do readItems parts items (← readDateLiteral ['%'] t)
  | .space _ :: items, t => readItems parts items (Text.trimStart t)
  | .invalid :: _, _ => .error .invalid

/-! ## Resolving parts -/

/-- The year. Two digits alone are a year from 1970 to 2069; beside a full year they must be its
    last two, and the full year must not be negative. -/
def resolveYear (parts : DateParts) : Except DateFault (Option Int) :=
  match parts.year, parts.yearOfCentury with
  | year, none => .ok year
  | some year, some short =>
    if 0 ≤ year ∧ year % 100 = short then .ok (some year) else .error .impossible
  | none, some short => .ok (some (short + if short < 70 then 2000 else 1900))

/-- The date agrees with the parts that it was not made of. -/
def agrees (parts : DateParts) (date : Date) : Bool :=
  parts.month.getD date.month = date.month && parts.day.getD date.day = date.day &&
    parts.dayOfYear.getD date.ordinal = date.ordinal &&
    parts.weekday.getD date.weekday = date.weekday

/-- The date of a year and a number in it, if calculations may reach it. -/
def dateOfOrdinal? (year : Int) (ordinal : Nat) : Option Date :=
  (Date.ofOrdinal? year ordinal).filter Date.inRange

/-- The date: by year, month and day, or else by year and day of the year. -/
def date (parts : DateParts) : Except DateFault Date := do
  let found ←
    match ← parts.resolveYear, parts.month, parts.day, parts.dayOfYear with
    | some year, some month, some day, _ => pure (Date.ofYmdInRange? year month.toNat day.toNat)
    | some year, _, _, some ordinal => pure (dateOfOrdinal? year ordinal.toNat)
    | _, _, _, _ => throw .notEnough
  match found with
  | none => throw .outOfRange
  | some date => if parts.agrees date then pure date else throw .impossible

/-- The second of the minute and the nanoseconds; second 60 is a leap second. -/
def secondAndNano (parts : DateParts) : Except DateFault (Nat × Nat) :=
  match parts.second, parts.nano with
  | none, some _ => .error .notEnough
  | none, none => .ok (0, 0)
  | some second, nano =>
    let nano := (nano.getD 0).toNat
    .ok (if second = 60 then (59, nanosPerSecond + nano) else (second.toNat, nano))

/-- The time of day, at a date. Hour and minute must be known. -/
def clock (parts : DateParts) (date : Date) : Except DateFault Moment := do
  match parts.half, parts.hourOfHalf, parts.minute with
  | some half, some hour, some minute =>
    let (second, nano) ← parts.secondAndNano
    match Moment.ofClock? date (half * 12 + hour).toNat minute.toNat second nano with
    | some m => pure m
    | none => throw .outOfRange
  | _, _, _ => throw .notEnough

end DateParts

/-! ## Patterns -/

/-- Reads a text as a moment, or as a date at midnight if no time can be made of it. The fault is
    that of the date. -/
def Pattern.parse (p : Pattern) (t : Text) : Except Failure Moment :=
  let read : Except DateFault Moment := do
    let parts ← DateParts.readItems {} p.items t
    let date ← parts.date
    match parts.clock date with
    | .ok m => pure m
    | .error _ => pure (.midnight date)
  read.mapError fun fault => .date (.dateMismatch t p.source fault)

end Recordsmith
