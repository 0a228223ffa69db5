import Recordsmith.Json.Fault
import Recordsmith.Number.Integer
import Recordsmith.Number.Real

/-!
# Failures

Why a template, an option or an expression cannot be used.

* `ArgumentFault` are the causes that lie in the arguments of a function;
* `Failure` are all causes;
* `Failure.message` words each of them, and nothing else in the project does.
-/

namespace Recordsmith

/-- Why a text is not read by a date pattern. -/
inductive DateFault where
  | outOfRange
  | impossible
  | notEnough
  | invalid
  | tooShort
  | tooLong
deriving DecidableEq, Repr

/-- The wording of a date fault. -/
def DateFault.message : DateFault → String
  | .outOfRange => "input is out of range"
  | .impossible => "no possible date and time matching input"
  | .notEnough => "input is not enough for unique date and time"
  | .invalid => "input contains invalid characters"
  | .tooShort => "premature end of input"
  | .tooLong => "trailing input"

/-- Why a text is no number. -/
inductive NumberFault where
  | integer (fault : IntegerFault)
  | real (fault : RealFault)
deriving DecidableEq, Repr

/-- The wording of a number fault. -/
def NumberFault.message : NumberFault → String
  | .integer fault => fault.message
  | .real fault => fault.message

/-- What is wrong with the arguments of a function. -/
inductive ArgumentFault where
  | invalidNumber (text : Text) (fault : NumberFault)
  | missing (what : String)
  | noChoice
  | noInlineTemplate
  | inlineNotObject
  | inlineCountZero
  | emptyRange
  | unboundedRange
  | invalidOffset (text : Text)
  | offsetOutOfRange (text : Text)
  | noSuchReading (text zone : Text)
  | cursorOutOfRange
  | unknownUnit (name : Text)
  | dateMismatch (text pattern : Text) (fault : DateFault)
  | reversedDates
  | sampledInvalidDate (year : Int) (month day hour minute second : Nat)
  | noDefaultRange (pattern : Text)
deriving DecidableEq, Repr

/-- A text between apostrophes. -/
def quoteText (t : Text) : String := "'" ++ String.ofList t ++ "'"

/-- The wording of an argument fault. -/
def ArgumentFault.message : ArgumentFault → String
  | .invalidNumber text fault => s!"invalid number {quoteText text}: {fault.message}"
  | .missing what => s!"missing {what} argument"
  | .noChoice => "needs at least one choice"
  | .noInlineTemplate => "missing inline template"
  | .inlineNotObject => "inline template must be an object"
  | .inlineCountZero => "count must be > 0"
  | .emptyRange => "min must be < max"
  | .unboundedRange => "bounds must be finite with min <= max"
  | .invalidOffset text => s!"invalid offset {quoteText text}"
  | .offsetOutOfRange text => s!"offset {quoteText text} out of range"
  | .noSuchReading text zone => s!"{quoteText text} does not exist in {String.ofList zone}"
  | .cursorOutOfRange => "cursor moved out of range"
  | .unknownUnit name => s!"unknown time unit {quoteText name}"
  | .dateMismatch text pattern fault =>
    s!"{quoteText text} does not match {quoteText pattern}: {fault.message}"
  | .reversedDates => "min must be <= max"
  | .sampledInvalidDate year month day hour minute second =>
    s!"sampled invalid date {year}-{month}-{day} {hour}:{minute}:{second}"
  | .noDefaultRange pattern => s!"no default range for pattern {quoteText pattern}"

/-- Why something cannot be generated. -/
inductive Failure where
  | templateSyntax (fault : Json.Fault)
  | recordSyntax (fault : Json.Fault)
  | noColumns
  | argument (function : Text) (fault : ArgumentFault)
  | unknownZone (name : Text)
  | invalidPattern (source : Text)
  | noWorkers
  | wideDelimiter (delimiter : Text)
deriving DecidableEq, Repr

/-- The wording of a failure. -/
def Failure.message : Failure → String
  | .templateSyntax fault => s!"template parse error: {fault.message}"
  | .recordSyntax fault => s!"json error: {fault.message}"
  | .noColumns => "invalid template: template root must be an object to have columns"
  | .argument function fault => s!"{String.ofList function}: {fault.message}"
  | .unknownZone name => s!"unknown time zone: {String.ofList name}"
  | .invalidPattern source => s!"invalid date-time pattern: {String.ofList source}"
  | .noWorkers => "invalid options: worker_count must be > 0"
  | .wideDelimiter delimiter =>
    s!"invalid options: delimiter must be a single byte, got {quoteText delimiter}"

/-- A failure of the arguments of the date functions. -/
def Failure.date (fault : ArgumentFault) : Failure := .argument "date".toList fault

end Recordsmith
