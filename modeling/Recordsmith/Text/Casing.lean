import Recordsmith.Text.Basic
import Recordsmith.Text.CaseTable

/-!
# Casing

Capital and small forms of a text by the full Unicode mappings.

* `upper` maps character by character; a character may become several (`ß` becomes `SS`);
* `lower` maps character by character, except that a capital sigma at the end of a word becomes the
  final small sigma, and that `İ` becomes an `i` with a dot above.
-/

namespace Recordsmith.Text

/-! ## Single characters -/

/-- The image of a code point under the first run that holds it. -/
def runImage? (runs : List (Nat × Nat × Nat × Nat)) (n : Nat) : Option Nat :=
  (runs.find? fun (first, last, step, _) => first ≤ n && n ≤ last && (n - first) % step == 0).map
    fun (first, _, _, image) => image + (n - first)

/-- Membership in a list of ranges. -/
def inRanges (ranges : List (Nat × Nat)) (c : Char) : Bool :=
  ranges.any fun (first, last) => first ≤ c.toNat && c.toNat ≤ last

/-- A letter with a capital, small or title form. -/
def isCased (c : Char) : Bool := inRanges CaseTable.cased c

/-- A mark or sign that does not end a word for the rule of the final sigma. -/
def isCaseIgnorable (c : Char) : Bool := inRanges CaseTable.ignorable c

/-- The capital form of a character. -/
def upperChar (c : Char) : Text :=
  if c.toNat < 0x80 then
    [if 'a' ≤ c ∧ c ≤ 'z' then Char.ofNat (c.toNat - 32) else c]
  else
    match CaseTable.upperSpecial.lookup c.toNat with
    | some images => images.map Char.ofNat
    | none => [(runImage? CaseTable.upperRuns c.toNat).elim c Char.ofNat]

/-- The small form of a character, wherever it stands. -/
def lowerChar (c : Char) : Text :=
  if c.toNat < 0x80 then [asciiLower c]
  else if c = 'İ' then ['i', Char.ofNat 0x307]
  else [(runImage? CaseTable.lowerRuns c.toNat).elim c Char.ofNat]

/-! ## Texts -/

/-- The capital form of a text. -/
def upper (t : Text) : Text := t.flatMap upperChar

/-- The first character that is not passed over is a cased letter. -/
def meetsCased (t : Text) : Bool := ((t.dropWhile isCaseIgnorable).head?.map isCased).getD false

/-- The small form of a text whose characters so far are `before`, the latest first. -/
def lowerFrom (before : Text) : Text → Text
  | [] => []
  | c :: rest =>
    let image :=
      if c = 'Σ' then if meetsCased before && !meetsCased rest then ['ς'] else ['σ']
      else lowerChar c
    image ++ lowerFrom (c :: before) rest

/-- The small form of a text. -/
def lower (t : Text) : Text := lowerFrom [] t

end Recordsmith.Text
