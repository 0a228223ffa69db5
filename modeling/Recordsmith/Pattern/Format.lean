import Recordsmith.Pattern.Field
import Recordsmith.Failure

/-!
# Date patterns and format text

A pattern writes a date in letters, as in `yyyy-MM-dd'T'HH:mm`; runs between apostrophes stand for
themselves. Format text is the same with percent directives, as in `%Y-%m-%dT%H:%M`.

* `Pattern.formatText?` turns a pattern into format text;
* `Format.items` reads format text as a list of `Item`s;
* `Pattern.compile` does both, and refuses a pattern that has no reading.
-/

namespace Recordsmith

/-- A part of format text. White space and percent signs are kept apart from other literal text. -/
inductive Item where
  | field (f : Field)
  | literal (t : Text)
  | percent
  | space (t : Text)
  | invalid
deriving DecidableEq, Repr

/-! ## From patterns to format text -/

namespace Pattern

/-- A character that stands for itself, in format text. -/
def literal (c : Char) : Text := if c = '%' then ['%', '%'] else [c]

/-- Where the reading of a pattern stands: outside quotes, or after an apostrophe that opened a
    quoted run, or in a run of one letter. -/
inductive Place where
  | outside
  | quoted
  | letters (letter : Char) (run : Nat)
deriving DecidableEq, Repr

/-- The format text of the run of letters that ends at a place, if there is one. -/
def close? : Place → Option Text
  | .letters letter run => (Field.ofLetters? letter run).map fun f => '%' :: f.directive
  | .outside => some []
  | .quoted => some []

/-- An ASCII letter. -/
def isLetter (c : Char) : Bool := c.isAlpha

/-- The format text of a pattern from a place on. A doubled apostrophe is one apostrophe, in quotes
    and outside. A quoted run must be closed, and a run of letters must have a field. -/
def formatFrom? : Place → Text → Option Text
  | .quoted, [] => none
  | place, [] => close? place
  | .quoted, '\'' :: '\'' :: rest => (formatFrom? .quoted rest).map ('\'' :: ·)
  | .quoted, '\'' :: rest => formatFrom? .outside rest
  | .quoted, c :: rest => (formatFrom? .quoted rest).map (literal c ++ ·)
  | place, '\'' :: '\'' :: rest => do
    let ended ← close? place
    let later ← formatFrom? .outside rest
    some (ended ++ '\'' :: later)
  | place, '\'' :: rest => do
    let ended ← close? place
    let later ← formatFrom? .quoted rest
    some (ended ++ later)
  | .letters letter run, c :: rest =>
    if c = letter then formatFrom? (.letters letter (run + 1)) rest
    else do
      let ended ← close? (.letters letter run)
      let later ←
        if isLetter c then formatFrom? (.letters c 1) rest
        else (formatFrom? .outside rest).map (literal c ++ ·)
      some (ended ++ later)
  | .outside, c :: rest =>
    if isLetter c then formatFrom? (.letters c 1) rest
    else (formatFrom? .outside rest).map (literal c ++ ·)

/-- The format text of a pattern. -/
def formatText? (source : Text) : Option Text := formatFrom? .outside source

end Pattern

/-! ## From format text to items -/

namespace Format

/-- Puts a literal character in front of items, into the literal text that they start with. -/
def consLiteral (c : Char) : List Item → List Item
  | .literal t :: items => .literal (c :: t) :: items
  | items => .literal [c] :: items

/-- Puts a blank character in front of items, into the white space that they start with. -/
def consSpace (c : Char) : List Item → List Item
  | .space t :: items => .space (c :: t) :: items
  | items => .space [c] :: items

/-- The items of format text, of which at most `fuel` characters are read. -/
def itemsFrom : (fuel : Nat) → Text → List Item
  | 0, _ | _, [] => []
  | fuel + 1, '%' :: '%' :: rest => .percent :: itemsFrom fuel rest
  | fuel + 1, '%' :: rest =>
    match Field.ofDirective? rest with
    | some (f, rest) => .field f :: itemsFrom fuel rest
    | none => .invalid :: itemsFrom fuel rest
  | fuel + 1, c :: rest =>
    if Text.isBlank c then consSpace c (itemsFrom fuel rest)
    else consLiteral c (itemsFrom fuel rest)

/-- The items of format text. -/
def items (format : Text) : List Item := itemsFrom format.length format

end Format

/-! ## Compiled patterns -/

/-- A pattern with its format text. -/
structure Pattern where
  source : Text
  format : Text
deriving DecidableEq, Repr

namespace Pattern

/-- Compiles a pattern. -/
def compile (source : Text) : Except Failure Pattern :=
  match formatText? source with
  | none => .error (.invalidPattern source)
  | some format =>
    if (Format.items format).contains .invalid then .error (.invalidPattern source)
    else .ok ⟨source, format⟩

/-- The items of a compiled pattern. -/
def items (p : Pattern) : List Item := Format.items p.format

/-- Dates with times to the millisecond, in universal time. -/
def iso : Text := "yyyy-MM-dd'T'HH:mm:ss.SSS'Z'".toList

/-- Dates. -/
def dashedDate : Text := "yyyy-MM-dd".toList

/-- Dates with times to the second. -/
def dashedDateTime : Text := "yyyy-MM-dd HH:mm:ss".toList

end Pattern
end Recordsmith
