import Recordsmith.Text.Basic

/-!
# Quoted text

A text in one pair of single or double quotes, blank characters around it apart.

* `inside? q t` is what stands between two quotes `q` at the ends of `t`;
* `stripQuotes` removes one layer of quotes, and trims;
* `isQuoted` says whether there is a layer to remove.
-/

namespace Recordsmith.Text

/-- What stands between a first and a last character `q`. -/
def inside? (q : Char) : Text → Option Text
  | [] => none
  | c :: cs => if c = q ∧ cs.getLast? = some q then some cs.dropLast else none

/-- The trimmed text without one layer of quotes; the content of a layer is trimmed again. -/
def stripQuotes (t : Text) : Text :=
  let trimmed := trim t
  match inside? '"' trimmed with
  | some inner => trim inner
  | none =>
    match inside? '\'' trimmed with
    | some inner => trim inner
    | none => trimmed

/-- The trimmed text is at least two characters long, and starts and ends with the same quote. -/
def isQuoted (t : Text) : Bool :=
  let trimmed := trim t
  2 ≤ trimmed.length &&
    ((trimmed.head? == some '"' && trimmed.getLast? == some '"') ||
     (trimmed.head? == some '\'' && trimmed.getLast? == some '\''))

end Recordsmith.Text
