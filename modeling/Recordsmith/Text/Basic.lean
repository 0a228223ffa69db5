/-!
# Text

Text is a list of characters, so that every rule on it is a recursion on the data.

* `isBlank` is Unicode white space, the set that trimming removes;
* `trim`, `trimStart`, `trimEnd` cut blank characters at the ends;
* `dropEndWhile`, `beforeLast` cut at the end of a text;
* `replaceAll` replaces every occurrence of a word, left to right, without overlaps;
* `utf8Size` is the length of a text in UTF-8 bytes.
-/

namespace Recordsmith

/-- A text is the list of its characters. -/
abbrev Text := List Char

namespace Text

/-! ## White space -/

/-- Unicode white space. -/
def isBlank (c : Char) : Bool :=
  c = ' ' || (0x09 ≤ c.toNat && c.toNat ≤ 0x0D) || c.toNat = 0x85 || c.toNat = 0xA0 ||
  c.toNat = 0x1680 || (0x2000 ≤ c.toNat && c.toNat ≤ 0x200A) || c.toNat = 0x2028 ||
  c.toNat = 0x2029 || c.toNat = 0x202F || c.toNat = 0x205F || c.toNat = 0x3000

/-- The text without the longest end whose characters all satisfy `p`. -/
def dropEndWhile (p : Char → Bool) (t : Text) : Text := (t.reverse.dropWhile p).reverse

/-- The text without the blank characters at its start. -/
def trimStart (t : Text) : Text := t.dropWhile isBlank

/-- The text without the blank characters at its end. -/
def trimEnd (t : Text) : Text := dropEndWhile isBlank t

/-- The text without the blank characters at both ends. -/
def trim (t : Text) : Text := trimEnd (trimStart t)

/-! ## Cutting and replacing -/

/-- What stands before the last occurrence of `c`, if there is one. -/
def beforeLast (c : Char) (t : Text) : Option Text :=
  match t.reverse.dropWhile (· != c) with
  | [] => none
  | _ :: kept => some kept.reverse

/-- What follows `word` at the start of the text, if the text starts with it. -/
def dropWord? : (word t : Text) → Option Text
  | [], t => some t
  | w :: ws, c :: cs => if w = c then dropWord? ws cs else none
  | _ :: _, [] => none

/-- Replaces every occurrence of `word`, found from the left and without overlaps.
    `skip` counts the characters of an occurrence that are still to be passed over. -/
def replaceFrom (word by_ : Text) : (skip : Nat) → Text → Text
  | _, [] => []
  | skip + 1, _ :: cs => replaceFrom word by_ skip cs
  | 0, c :: cs =>
    match dropWord? word (c :: cs) with
    | some _ => by_ ++ replaceFrom word by_ (word.length - 1) cs
    | none => c :: replaceFrom word by_ 0 cs

/-- Replaces every occurrence of a non-empty word, left to right, without overlaps. -/
def replaceAll (word by_ t : Text) : Text := replaceFrom word by_ 0 t

/-- The number of UTF-8 bytes of a text. -/
def utf8Size : Text → Nat
  | [] => 0
  | c :: cs => c.utf8Size + utf8Size cs

/-! ## Small alphabets -/

/-- The value of a decimal digit. -/
def digit? (c : Char) : Option Nat :=
  if '0' ≤ c ∧ c ≤ '9' then some (c.toNat - '0'.toNat) else none

/-- An ASCII capital as its small letter; any other character unchanged. -/
def asciiLower (c : Char) : Char :=
  if 'A' ≤ c ∧ c ≤ 'Z' then Char.ofNat (c.toNat + 32) else c

/-- Equality up to the case of ASCII letters. -/
def eqIgnoringCase (s t : Text) : Bool := s.map asciiLower == t.map asciiLower

/-- `width` digits at least, filled with `fill` on the left. -/
def padLeft (fill : Char) (width : Nat) (t : Text) : Text :=
  List.replicate (width - t.length) fill ++ t

/-- The decimal digits of a natural number. -/
def ofNat (n : Nat) : Text := Nat.toDigits 10 n

/-- An integer in decimal, with a minus sign if negative. -/
def ofInt : Int → Text
  | .ofNat n => ofNat n
  | .negSucc n => '-' :: ofNat (n + 1)

/-- `n` in decimal with at least `width` digits. -/
def ofNatPadded (width n : Nat) : Text := padLeft '0' width (ofNat n)

/-- The texts one after the other with `sep` between them. -/
def join (sep : Text) : List Text → Text
  | [] => []
  | [t] => t
  | t :: u :: ts => t ++ sep ++ join sep (u :: ts)

end Text
end Recordsmith
