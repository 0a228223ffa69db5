import Recordsmith.Text.Basic

/-!
# Functions

* `Function` are the functions of the expression language;
* `Function.named?` finds the function of a call by its name;
* `Function.ofKeyword?` finds the function that a bare word stands for. The word `datetime` stands
  for a random date, the call `datetime(…)` for a date at an offset from the present.
-/

namespace Recordsmith

/-- A function of the expression language. -/
inductive Function where
  | choice
  | inlineTemplate
  | int
  | long
  | double
  | dateSequence
  | dateOffset
  | dateTime
  | date
  | isoDateTime
  | alpha
  | alphanumeric
  | quoted
  | concat
  | sequence
  | upper
  | lower
  | uuid
  | bool
deriving DecidableEq, Repr

namespace Function

/-- The names that calls use. -/
def callNames : List (Text × Function) :=
  [("random".toList, choice), ("json".toList, inlineTemplate), ("int".toList, int),
   ("long".toList, long), ("double".toList, double), ("datetime_seq".toList, dateSequence),
   ("datetime".toList, dateOffset), ("datetime:simple".toList, dateTime), ("date".toList, date),
   ("alpha".toList, alpha), ("alphanumeric".toList, alphanumeric), ("qs".toList, quoted),
   ("cat".toList, concat), ("seq".toList, sequence), ("upper".toList, upper),
   ("lower".toList, lower), ("uuid".toList, uuid), ("bool".toList, bool)]

/-- The words that need no brackets. -/
def keywords : List (Text × Function) :=
  [("int".toList, int), ("long".toList, long), ("double".toList, double),
   ("datetime".toList, isoDateTime), ("date".toList, date), ("alpha".toList, alpha),
   ("alphanumeric".toList, alphanumeric), ("uuid".toList, uuid), ("seq".toList, sequence),
   ("bool".toList, bool)]

/-- The function that a call names. -/
def named? (name : Text) : Option Function := callNames.lookup name

/-- The function that a bare word stands for. -/
def ofKeyword? (word : Text) : Option Function := keywords.lookup word

end Function
end Recordsmith
