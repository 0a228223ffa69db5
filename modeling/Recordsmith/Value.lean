import Recordsmith.Json.Writer

/-!
# Generated values

* `Value` is what a leaf of a template becomes; each integer kind has the range of its word;
* `Value.toJson?` is its JSON form, which unsupported values and doubles that are not finite lack;
* `Value.display` is its text inside another text.
-/

namespace Recordsmith

/-- What a leaf of a template becomes. -/
inductive Value where
  | null
  | bool (b : Bool)
  /-- A signed 32-bit integer. -/
  | int (n : Int)
  /-- A signed 64-bit integer. -/
  | long (n : Int)
  /-- An unsigned 64-bit integer above the signed ones. -/
  | unsignedLong (n : Int)
  | double (x : Float)
  | text (t : Text)
  /-- A value without a JSON form. -/
  | unsupported (reason : Text)

namespace Value

/-- The name of the kind. -/
def kind : Value → String
  | null => "null"
  | bool _ => "bool"
  | int _ => "int"
  | long _ => "long"
  | unsignedLong _ => "unsigned long"
  | double _ => "double"
  | text _ => "string"
  | unsupported _ => "unsupported"

/-- The JSON form. -/
def toJson? : Value → Option Json
  | null => some .null
  | bool b => some (.bool b)
  | int n | long n | unsignedLong n => some (.int n)
  | double x => if x.isFinite then some (.float x) else none
  | text t => some (.str t)
  | unsupported _ => none

/-- The text inside another text. -/
def display : Value → Text
  | null => "null".toList
  | bool true => "true".toList
  | bool false => "false".toList
  | int n | long n | unsignedLong n => Text.ofInt n
  | double x => Layout.plain.render x
  | text t => t
  | unsupported reason => "<unsupported: ".toList ++ reason ++ ['>']

end Value
end Recordsmith
