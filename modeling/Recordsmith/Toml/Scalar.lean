import Recordsmith.Calendar.Date
import Recordsmith.Number.Integer
import Recordsmith.Number.Real
import Recordsmith.Toml.Basic

/-!
# The pieces of TOML lines

What stands between the separators of a TOML file: white space and comments, strings, keys, numbers,
dates and times.

A reader of a piece returns what it has read and the rest of the text; a reader whose name starts
with `after` returns the rest only.
-/

namespace Recordsmith.Toml

/-! ## Blanks and lines -/

/-- White space within a line. -/
def isSpace (c : Char) : Bool := c = ' ' || c = '\t'

/-- The text after white space. -/
def afterSpace (t : Text) : Text := t.dropWhile isSpace

/-- The text after a line break. -/
def afterBreak? : Text → Option Text
  | '\n' :: rest => some rest
  | '\r' :: '\n' :: rest => some rest
  | _ => none

/-- The text after white space and line breaks. -/
def afterBreaks : Text → Text
  | [] => []
  | '\n' :: rest => afterBreaks rest
  | '\r' :: '\n' :: rest => afterBreaks rest
  | c :: rest => if isSpace c then afterBreaks rest else c :: rest

/-- The text after a comment, which holds no control characters but tabs. -/
def afterComment? : Text → Option Text
  | '#' :: rest =>
    let (comment, rest) := rest.span fun c => c ≠ '\n' && c ≠ '\r'
    if comment.all fun c => c = '\t' || (0x20 ≤ c.toNat && c.toNat ≠ 0x7F) then some rest else none
  | t => some t

/-- The text after the rest of a line, which holds nothing but white space and a comment. -/
def afterLine? (t : Text) : Option Text := do
  match ← afterComment? (afterSpace t) with
  | [] => some []
  | rest => afterBreak? rest

/-- The text after white space, comments and line breaks. -/
def afterBlankLines? : (fuel : Nat) → Text → Option Text
  | 0, t => some t
  | fuel + 1, t => do
    let rest ← afterComment? (afterSpace t)
    match afterBreak? rest with
    | some rest => afterBlankLines? fuel rest
    | none => some rest

/-! ## Strings -/

/-- The character with a hexadecimal code of a number of digits. -/
def readCode? (digits : Nat) (t : Text) : Option (Char × Text) := do
  let code := t.take digits
  if code.length < digits then none
  let n ← code.foldlM (fun n c => do
    let d ←
      if '0' ≤ c ∧ c ≤ '9' then some (c.toNat - '0'.toNat)
      else if 'a' ≤ c ∧ c ≤ 'f' then some (c.toNat - 'a'.toNat + 10)
      else if 'A' ≤ c ∧ c ≤ 'F' then some (c.toNat - 'A'.toNat + 10)
      else none
    some (n * 16 + d)) 0
  if n < 0xD800 ∨ (0xDFFF < n ∧ n < 0x110000) then some (Char.ofNat n, t.drop digits) else none

/-- Reads an escape after its backslash. -/
def readEscape? : Text → Option (Char × Text)
  | 'b' :: rest => some ('\x08', rest)
  | 't' :: rest => some ('\t', rest)
  | 'n' :: rest => some ('\n', rest)
  | 'f' :: rest => some ('\x0c', rest)
  | 'r' :: rest => some ('\r', rest)
  | '"' :: rest => some ('"', rest)
  | '\\' :: rest => some ('\\', rest)
  | 'u' :: rest => readCode? 4 rest
  | 'U' :: rest => readCode? 8 rest
  | _ => none

/-- A character that a string may hold as it is. -/
def isPlain (c : Char) : Bool := c = '\t' || (0x20 ≤ c.toNat && c.toNat ≠ 0x7F)

/-- Reads a string of one line up to its closing quote, at most `fuel` characters. -/
def readLineString? (quote : Char) : (fuel : Nat) → (before : Text) → Text → Option (Text × Text)
  | 0, _, _ | _, _, [] => none
  | fuel + 1, before, c :: rest =>
    if c = quote then some (before.reverse, rest)
    else if c = '\\' ∧ quote = '"' then do
      let (c, rest) ← readEscape? rest
      readLineString? quote fuel (c :: before) rest
    else if isPlain c then readLineString? quote fuel (c :: before) rest
    else none

/-- Reads a string of several lines up to its three closing quotes, at most `fuel` characters. One
    or two quotes before the closing ones belong to the string. A backslash at the end of a line
    joins it with what follows the blanks after it. -/
def readBlockString? (quote : Char) : (fuel : Nat) → (before : Text) → Text → Option (Text × Text)
  | 0, _, _ | _, _, [] => none
  | fuel + 1, before, c :: rest =>
    if c = quote then
      let more := (rest.takeWhile (· = quote)).length
      if more < 2 then readBlockString? quote fuel (c :: before) rest
      else if more < 5 then
        some (before.reverse ++ List.replicate (more - 2) quote, rest.drop more)
      else none
    else if c = '\\' ∧ quote = '"' then
      match afterBreak? (afterSpace rest) with
      | some rest => readBlockString? quote fuel before (afterBreaks rest)
      | none => do
        let (c, rest) ← readEscape? rest
        readBlockString? quote fuel (c :: before) rest
    else if isPlain c || c = '\n' then readBlockString? quote fuel (c :: before) rest
    else if c = '\r' ∧ rest.head? = some '\n' then readBlockString? quote fuel before rest
    else none

/-- The text after a line break, or the text itself. -/
def dropBreak (t : Text) : Text := (afterBreak? t).getD t

/-- Reads a string of either kind. -/
def readString? : Text → Option (Text × Text)
  | '"' :: '"' :: '"' :: rest => readBlockString? '"' (rest.length + 1) [] (dropBreak rest)
  | '\'' :: '\'' :: '\'' :: rest => readBlockString? '\'' (rest.length + 1) [] (dropBreak rest)
  | '"' :: rest => readLineString? '"' (rest.length + 1) [] rest
  | '\'' :: rest => readLineString? '\'' (rest.length + 1) [] rest
  | _ => none

/-! ## Keys -/

/-- A character of a key without quotes. -/
def isKeyChar (c : Char) : Bool := c.isAlphanum || c = '_' || c = '-'

/-- Reads one part of a key. -/
def readKeyPart? (t : Text) : Option (Text × Text) :=
  match t with
  | '"' :: rest => readLineString? '"' (rest.length + 1) [] rest
  | '\'' :: rest => readLineString? '\'' (rest.length + 1) [] rest
  | t =>
    let (part, rest) := t.span isKeyChar
    if part.isEmpty then none else some (part, rest)

/-- How many parts a key may have, and how deep values may be nested. -/
def maxDepth : Nat := 79

/-- Reads a key, whose parts are separated by points, at most `parts` of them. -/
def readParts? : (parts : Nat) → Text → Option (List Text × Text)
  | 0, _ => none
  | parts + 1, t => do
    let (part, rest) ← readKeyPart? (afterSpace t)
    match afterSpace rest with
    | '.' :: rest => do
      let (later, rest) ← readParts? parts rest
      some (part :: later, rest)
    | rest => some ([part], rest)

/-- Reads a key. -/
def readKey? : Text → Option (List Text × Text) := readParts? maxDepth

/-! ## Numbers -/

/-- The digits of a number whose underscores all stand between digits. -/
def plainDigits? (isDigit : Char → Bool) (t : Text) : Option Text :=
  let digits := t.filter (· ≠ '_')
  if digits.isEmpty ∨ !digits.all isDigit ∨ t.head? = some '_' ∨ t.getLast? = some '_' ∨
      (t.zip (t.drop 1)).contains ('_', '_') then none
  else some digits

/-- The value of digits in a base. -/
def valueIn (base : Nat) (digits : Text) : Nat :=
  digits.foldl (fun n c =>
    n * base + (if c.isDigit then c.toNat - '0'.toNat else (Text.asciiLower c).toNat - 87)) 0

/-- An integer of 64 bits. -/
def wideInt? (n : Int) : Option Value :=
  if IntegerRange.int64.min ≤ n ∧ n ≤ IntegerRange.int64.max then some (.integer n) else none

/-- Digits without a leading zero, unless they are a zero. -/
def canonical? (digits : Text) : Option Text :=
  if digits.head? = some '0' ∧ digits.length ≠ 1 then none else some digits

/-- Reads the characters of an integer in base ten. -/
def decimalInt? (negative : Bool) (t : Text) : Option Value := do
  let digits ← (plainDigits? Char.isDigit t).bind canonical?
  let n := valueIn 10 digits
  wideInt? (if negative then -n else n)

/-- Reads the characters of a double: digits with a point, an exponent, or both. A number above all
    doubles is refused; one below them is the negative infinity. -/
def double? (negative : Bool) (t : Text) : Option Value := do
  let (mantissa, exponent) := t.span fun c => c ≠ 'e' && c ≠ 'E'
  let (whole, fraction) := mantissa.span (· ≠ '.')
  let whole ← (plainDigits? Char.isDigit whole).bind canonical?
  let fraction ←
    match fraction with
    | [] => some []
    | _ :: fraction => plainDigits? Char.isDigit fraction
  let exponent ←
    match exponent with
    | [] => some 0
    | _ :: '-' :: digits => (plainDigits? Char.isDigit digits).map fun d => -(valueIn 10 d : Int)
    | _ :: '+' :: digits => (plainDigits? Char.isDigit digits).map fun d => (valueIn 10 d : Int)
    | _ :: digits => (plainDigits? Char.isDigit digits).map fun d => (valueIn 10 d : Int)
  let x := decimalFloat negative (whole ++ fraction) (exponent - fraction.length)
  if x.isInf ∧ !negative then none else some (.float x)

/-- A word for a double that is not finite. -/
def specialDouble? (negative : Bool) (t : Text) : Option Value :=
  if t = "inf".toList ∨ t = "nan".toList then (readSpecialReal? negative t).map .float else none

/-- The value of characters without blanks and separators. -/
def scalar? (t : Text) : Option Value :=
  match t with
  | '0' :: 'x' :: digits =>
    (plainDigits? (fun c => c.isDigit || ('a' ≤ Text.asciiLower c && Text.asciiLower c ≤ 'f'))
      digits).bind fun d => wideInt? (valueIn 16 d)
  | '0' :: 'o' :: digits =>
    (plainDigits? (fun c => '0' ≤ c && c ≤ '7') digits).bind fun d => wideInt? (valueIn 8 d)
  | '0' :: 'b' :: digits =>
    (plainDigits? (fun c => c = '0' || c = '1') digits).bind fun d => wideInt? (valueIn 2 d)
  | _ =>
    if t = "true".toList then some (.boolean true)
    else if t = "false".toList then some (.boolean false)
    else
      let (negative, body) :=
        match t with
        | '-' :: body => (true, body)
        | '+' :: body => (false, body)
        | body => (false, body)
      if body.any fun c => c = '.' || c = 'e' || c = 'E' then double? negative body
      else decimalInt? negative body <|> specialDouble? negative body

/-! ## Dates and times -/

/-- Reads a number of `n` digits from `low` to `high`. -/
def readPlaces? (n low high : Nat) (t : Text) : Option (Nat × Text) :=
  let digits := t.take n
  let value := valueIn 10 digits
  if digits.length = n ∧ digits.all Char.isDigit ∧ low ≤ value ∧ value ≤ high then
    some (value, t.drop n)
  else none

/-- The text after a date, `1979-05-27`, which must be one of the calendar. -/
def afterDate? (t : Text) : Option Text := do
  let (year, rest) ← readPlaces? 4 0 9999 t
  let (month, rest) ← readPlaces? 2 1 12 (← Text.dropWord? ['-'] rest)
  let (_, rest) ← readPlaces? 2 1 (daysInMonth year month) (← Text.dropWord? ['-'] rest)
  some rest

/-- The text after hours and minutes, `07:32`. -/
def afterMinute? (t : Text) : Option Text := do
  let (_, rest) ← readPlaces? 2 0 23 t
  let (_, rest) ← readPlaces? 2 0 59 (← Text.dropWord? [':'] rest)
  some rest

/-- The text after a time of day, `07:32:00`, with digits after a point or without them. A minute
    may have a second 60. -/
def afterTime? (t : Text) : Option Text := do
  let (_, rest) ← readPlaces? 2 0 60 (← Text.dropWord? [':'] (← afterMinute? t))
  match rest with
  | '.' :: c :: more => some (if c.isDigit then more.dropWhile Char.isDigit else rest)
  | _ => some rest

/-- The text after an offset from UTC. -/
def afterOffset? : Text → Option Text
  | 'Z' :: rest | 'z' :: rest => some rest
  | '+' :: rest | '-' :: rest => afterMinute? rest
  | _ => none

/-- The text after a time of day that follows a date, and after its offset. -/
def afterTimeOfDate? : Text → Option Text
  | 'T' :: rest | 't' :: rest | ' ' :: rest =>
    (afterTime? rest).map fun rest => (afterOffset? rest).getD rest
  | _ => none

/-- The text after a date, a time of day, or both. -/
def afterMoment? (t : Text) : Option Text :=
  match afterDate? t with
  | some rest => some ((afterTimeOfDate? rest).getD rest)
  | none => afterTime? t

end Recordsmith.Toml
