import Recordsmith.Text.Basic

/-!
# Fields of date patterns

* `Field` is a part of a date, a time or an offset, in the form in which it is written;
* `Field.ofLetters?` is the field of a run of one letter, as in `yyyy` or `MM`;
* `Field.directive` is the field in format text, as in `%Y` or `%m`, and `Field.ofDirective?` reads
  it back.
-/

namespace Recordsmith

/-- A number is written with its least digits, or filled with zeros to a fixed width. -/
inductive Fill where
  | none
  | zeros
deriving DecidableEq, Repr

/-- A part of a date, a time or an offset. -/
inductive Field where
  | year
  | yearOfCentury
  | month (fill : Fill)
  | monthAbbreviated
  | monthName
  | day (fill : Fill)
  | dayOfYear
  | hour (fill : Fill)
  | hourOfHalf (fill : Fill)
  | minute (fill : Fill)
  | second (fill : Fill)
  | milliseconds
  | microseconds
  | nanoseconds
  | half
  | weekdayAbbreviated
  | weekdayName
  | offset
  | offsetWithColon
  | zoneAbbreviation
deriving DecidableEq, Repr

namespace Field

/-- The field of a run of `run` letters. -/
def ofLetters? (letter : Char) (run : Nat) : Option Field :=
  match letter with
  | 'y' | 'u' => some (if run = 2 then yearOfCentury else year)
  | 'M' | 'L' =>
    some (if run = 1 then month .none else if run = 2 then month .zeros
      else if run = 3 then monthAbbreviated else monthName)
  | 'd' => some (day (if run = 1 then .none else .zeros))
  | 'D' => some dayOfYear
  | 'H' => some (hour (if run = 1 then .none else .zeros))
  | 'h' => some (hourOfHalf (if run = 1 then .none else .zeros))
  | 'm' => some (minute (if run = 1 then .none else .zeros))
  | 's' => some (second (if run = 1 then .none else .zeros))
  | 'S' => some (if run ≤ 3 then milliseconds else if run ≤ 6 then microseconds else nanoseconds)
  | 'a' => some half
  | 'E' => some (if run ≤ 3 then weekdayAbbreviated else weekdayName)
  | 'Z' => some offset
  | 'x' | 'X' => some (if run ≤ 2 then offset else offsetWithColon)
  | 'z' => some zoneAbbreviation
  | _ => none

/-- What follows the percent sign in format text. -/
def directive : Field → Text
  | year => ['Y']
  | yearOfCentury => ['y']
  | month .none => ['-', 'm']
  | month .zeros => ['m']
  | monthAbbreviated => ['b']
  | monthName => ['B']
  | day .none => ['-', 'd']
  | day .zeros => ['d']
  | dayOfYear => ['j']
  | hour .none => ['-', 'H']
  | hour .zeros => ['H']
  | hourOfHalf .none => ['-', 'I']
  | hourOfHalf .zeros => ['I']
  | minute .none => ['-', 'M']
  | minute .zeros => ['M']
  | second .none => ['-', 'S']
  | second .zeros => ['S']
  | milliseconds => ['3', 'f']
  | microseconds => ['6', 'f']
  | nanoseconds => ['9', 'f']
  | half => ['p']
  | weekdayAbbreviated => ['a']
  | weekdayName => ['A']
  | offset => ['z']
  | offsetWithColon => [':', 'z']
  | zoneAbbreviation => ['Z']

/-- The field at the start of what follows a percent sign, and the rest. -/
def ofDirective? : Text → Option (Field × Text)
  | 'Y' :: rest => some (year, rest)
  | 'y' :: rest => some (yearOfCentury, rest)
  | '-' :: 'm' :: rest => some (month .none, rest)
  | 'm' :: rest => some (month .zeros, rest)
  | 'b' :: rest => some (monthAbbreviated, rest)
  | 'B' :: rest => some (monthName, rest)
  | '-' :: 'd' :: rest => some (day .none, rest)
  | 'd' :: rest => some (day .zeros, rest)
  | 'j' :: rest => some (dayOfYear, rest)
  | '-' :: 'H' :: rest => some (hour .none, rest)
  | 'H' :: rest => some (hour .zeros, rest)
  | '-' :: 'I' :: rest => some (hourOfHalf .none, rest)
  | 'I' :: rest => some (hourOfHalf .zeros, rest)
  | '-' :: 'M' :: rest => some (minute .none, rest)
  | 'M' :: rest => some (minute .zeros, rest)
  | '-' :: 'S' :: rest => some (second .none, rest)
  | 'S' :: rest => some (second .zeros, rest)
  | '3' :: 'f' :: rest => some (milliseconds, rest)
  | '6' :: 'f' :: rest => some (microseconds, rest)
  | '9' :: 'f' :: rest => some (nanoseconds, rest)
  | 'p' :: rest => some (half, rest)
  | 'a' :: rest => some (weekdayAbbreviated, rest)
  | 'A' :: rest => some (weekdayName, rest)
  | 'z' :: rest => some (offset, rest)
  | ':' :: 'z' :: rest => some (offsetWithColon, rest)
  | 'Z' :: rest => some (zoneAbbreviation, rest)
  | _ => none

end Field

/-! ## Names -/

/-- The names of the months. -/
def monthNames : List String :=
  ["January", "February", "March", "April", "May", "June", "July", "August", "September",
    "October", "November", "December"]

/-- The names of the days of the week, from Monday. -/
def weekdayNames : List String :=
  ["Monday", "Tuesday", "Wednesday", "Thursday", "Friday", "Saturday", "Sunday"]

/-- A name of a list by its index from 0. -/
def nameAt (names : List String) (index : Nat) : Text := (names.getD index "").toList

end Recordsmith
