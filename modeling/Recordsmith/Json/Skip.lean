import Recordsmith.Json.Reader

/-!
# Passing over JSON

`Json.skipValue?` passes over a value that is of no interest. It checks the grammar, but neither how
deep the value is nested, nor how large its numbers are, nor whether its surrogates are paired.
-/

namespace Recordsmith.Json

/-- The text after white space. -/
def afterSpace (t : Text) : Text := t.dropWhile Input.isSpace

/-- The text after a string, whose opening quote has been read; at most `fuel` characters are
    read. -/
def skipString? : (fuel : Nat) → Text → Option Text
  | 0, _ | _, [] => none
  | _ + 1, '"' :: rest => some rest
  | fuel + 1, '\\' :: 'u' :: a :: b :: c :: d :: rest =>
    if ([a, b, c, d].mapM hexDigit?).isSome then skipString? fuel rest else none
  | fuel + 1, '\\' :: c :: rest =>
    if c ∈ ['"', '\\', '/', 'b', 'f', 'n', 'r', 't'] then skipString? fuel rest else none
  | fuel + 1, c :: rest => if c.toNat < 0x20 then none else skipString? fuel rest

/-- The text after at least one digit. -/
def skipSomeDigits? (t : Text) : Option Text :=
  if (t.head?.bind Text.digit?).isSome then some (t.dropWhile fun c => (Text.digit? c).isSome)
  else none

/-- The text after the exponent of a number, if there is one. -/
def skipExponent? : Text → Option Text
  | c :: rest =>
    if c = 'e' ∨ c = 'E' then
      match rest with
      | '+' :: rest | '-' :: rest => skipSomeDigits? rest
      | rest => skipSomeDigits? rest
    else some (c :: rest)
  | [] => some []

/-- The text after a number without a sign. -/
def skipNumber? (t : Text) : Option Text := do
  let rest ←
    match t with
    | '0' :: rest => if (rest.head?.bind Text.digit?).isSome then none else some rest
    | t => skipSomeDigits? t
  match rest with
  | '.' :: rest => do skipExponent? (← skipSomeDigits? rest)
  | rest => skipExponent? rest

/-- The text after the items of an array, with `close` their closing character; `item` passes over
    an item, and at most `fuel` items are passed over. -/
def skipItems? (item : Text → Option Text) (close : Char) : (fuel : Nat) → Text → Option Text
  | 0, _ => none
  | fuel + 1, t => do
    match afterSpace (← item (afterSpace t)) with
    | [] => none
    | c :: rest =>
      if c = close then some rest
      else if c = ',' then skipItems? item close fuel rest
      else none

/-- The text after a member of an object. -/
def skipMember? (item : Text → Option Text) : Text → Option Text
  | '"' :: rest => do
    match afterSpace (← skipString? (rest.length + 1) rest) with
    | ':' :: rest => item (afterSpace rest)
    | _ => none
  | _ => none

/-- The text after a value, which may be nested `depth` deep. -/
def skipValue? : (depth : Nat) → Text → Option Text
  | depth, t =>
    match afterSpace t with
    | [] => none
    | 'n' :: rest => Text.dropWord? ['u', 'l', 'l'] rest
    | 't' :: rest => Text.dropWord? ['r', 'u', 'e'] rest
    | 'f' :: rest => Text.dropWord? ['a', 'l', 's', 'e'] rest
    | '-' :: rest => skipNumber? rest
    | '"' :: rest => skipString? (rest.length + 1) rest
    | '[' :: rest =>
      match depth, afterSpace rest with
      | _, ']' :: rest => some rest
      | 0, _ => none
      | depth + 1, _ => skipItems? (skipValue? depth) ']' (rest.length + 1) rest
    | '{' :: rest =>
      match depth, afterSpace rest with
      | _, '}' :: rest => some rest
      | 0, _ => none
      | depth + 1, _ =>
        skipItems? (skipMember? (skipValue? depth)) '}' (rest.length + 1) rest
    | t => skipNumber? t

end Recordsmith.Json
