import Recordsmith.Json.Writer

/-!
# CSV lines

Fields with a delimiter between them. A field is quoted only where it has to be, and quotes inside
are doubled.

* `Csv.line` writes the fields of a line;
* `Csv.header` writes the names of columns, `Csv.row` the members of a record by the names of
  columns.

A delimiter is a byte. One that is no ASCII character is shown as a replacement character, and a
field is quoted also if the byte is a part of one of its characters.
-/

namespace Recordsmith.Csv

/-- The bytes of a text in UTF-8. -/
def utf8Bytes (t : Text) : List UInt8 := t.flatMap String.utf8EncodeChar

/-- The character that shows a delimiter. -/
def delimiterChar (delimiter : UInt8) : Char :=
  if delimiter < 128 then Char.ofNat delimiter.toNat else '\uFFFD'

/-- The byte of a field that cannot stand without quotes. -/
def isSpecial (delimiter b : UInt8) : Bool := b == delimiter || b == 34 || b == 13 || b == 10

/-- The field has to be quoted. -/
def needsQuotes (delimiter : UInt8) (field : Text) : Bool :=
  (utf8Bytes field).any (isSpecial delimiter)

/-- A field between quotes, with its own quotes doubled. -/
def quoteField (field : Text) : Text :=
  '"' :: (field.flatMap fun c => if c = '"' then ['"', '"'] else [c]) ++ ['"']

/-- A field, quoted where it has to be. -/
def writeField (delimiter : UInt8) (field : Text) : Text :=
  if needsQuotes delimiter field then quoteField field else field

/-- The fields of a line. A line without a character is a pair of quotes. -/
def line (delimiter : UInt8) (fields : List Text) : Text :=
  let written := Text.join [delimiterChar delimiter] (fields.map (writeField delimiter))
  if written.isEmpty then ['"', '"'] else written

/-- The names of columns. -/
def header (keys : List Text) (delimiter : UInt8) : Text := line delimiter keys

/-- A value as a field: nothing for a null, a text as it is, all else as JSON. -/
def fieldText : Json → Text
  | .null => []
  | .str t => t
  | v => v.render

/-- The fields of a record by the names of columns; a member that is not there is empty. -/
def fields (record : Json) (keys : List Text) : List Text :=
  keys.map fun key => ((record.get? key).map fieldText).getD []

/-- The members of a record by the names of columns. -/
def row (record : Json) (keys : List Text) (delimiter : UInt8) : Text :=
  line delimiter (fields record keys)

end Recordsmith.Csv
