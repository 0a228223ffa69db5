import Recordsmith.Text.Quoted

/-!
# Calls

Leaf texts of the form `name(argument, argument, …)`.

* `splitArguments` cuts a text at the commas outside brackets and quotes, with a `Scanner` that
  reads the text once;
* `Call.parse?` reads a call: a name, an opening bracket, and a closing one further on;
* `Call.bare` is a name without arguments.

Reading a call evaluates nothing: the arguments stay texts.
-/

namespace Recordsmith

/-! ## Splitting at commas -/

/-- What a scan knows between two characters: how many brackets are open, which quote is open, and
    the last character that was neither blank nor inside quotes. -/
structure Scanner where
  depth : Nat
  quote : Option Char
  previous : Option Char
deriving DecidableEq

namespace Scanner

/-- Before the first character. -/
def start : Scanner := ⟨0, none, none⟩

/-- A quote opens a quoted run only where a value can start. An apostrophe inside a word is text. -/
def opensValue : Option Char → Bool
  | none => true
  | some c => c ∈ ['(', '[', '{', ',', ':']

/-- After one more character. -/
def step (s : Scanner) (c : Char) : Scanner :=
  match s.quote with
  | some q => if c = q then { s with quote := none, previous := some c } else s
  | none =>
    let previous := if Text.isBlank c then s.previous else some c
    if (c = '"' ∨ c = '\'') ∧ opensValue s.previous then { s with quote := some c, previous }
    else if c ∈ ['(', '[', '{'] then { s with depth := s.depth + 1, previous }
    else if c ∈ [')', ']', '}'] then { s with depth := s.depth - 1, previous }
    else { s with previous }

/-- The character is a comma outside brackets and quotes. -/
def cuts (s : Scanner) (c : Char) : Bool := s.quote.isNone && c == ',' && s.depth == 0

/-- The pieces of a text between the commas outside brackets and quotes; never none. -/
def pieces (s : Scanner) : Text → List Text
  | [] => [[]]
  | c :: rest =>
    let later := pieces (s.step c) rest
    if s.cuts c then [] :: later
    else
      match later with
      | [] => [[c]]
      | piece :: others => (c :: piece) :: others

end Scanner

/-- The arguments of a list: its pieces, trimmed. A blank list has none. -/
def splitArguments (t : Text) : List Text :=
  if (Text.trim t).isEmpty then [] else (Scanner.start.pieces t).map Text.trim

/-! ## Calls -/

/-- A call as written. -/
structure Call where
  name : Text
  /-- All between the brackets. -/
  inner : Text
  /-- The arguments, trimmed. -/
  arguments : List Text
deriving DecidableEq

namespace Call

/-- A character of a name: an ASCII letter or digit, an underscore or a colon. -/
def isNameChar (c : Char) : Bool := c.isAlphanum || c == '_' || c == ':'

/-- A word that can name a function. -/
def isName (t : Text) : Bool := !t.isEmpty && t.all isNameChar

/-- A quote character. -/
def isQuote (c : Char) : Bool := c == '"' || c == '\''

/-- The name before the first opening bracket, without quotes around it. -/
def nameOf (t : Text) : Text := Text.dropEndWhile isQuote (t.dropWhile isQuote)

/-- Reads a call. What follows the last closing bracket is left out. -/
def parse? (t : Text) : Option Call := do
  let (before, rest) := (Text.trim t).span (· != '(')
  match rest with
  | [] => none
  | _ :: rest =>
    let inner ← Text.beforeLast ')' rest
    let name := nameOf before
    if isName name then some ⟨name, inner, splitArguments inner⟩ else none

/-- A name without arguments. -/
def bare (name : Text) : Call := ⟨name, [], []⟩

/-- The argument at an index. -/
def argument? (c : Call) (index : Nat) : Option Text := c.arguments[index]?

end Call
end Recordsmith
