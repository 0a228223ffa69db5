import Recordsmith.Failure
import Recordsmith.Json.Reader

/-!
# Templates

A template is a JSON text. A token in it stands for a fixed time and is replaced before the text is
read.

* `Template.substitute` replaces the token;
* `Template.parse` reads a template;
* `Template.columns` are the keys of an object template.
-/

namespace Recordsmith.Template

/-- The token that stands for the time of a run. -/
def token : Text := "DTM_RUNTIME".toList

/-- The time that replaces the token. -/
def timestamp : Text := "2021-09-30T17:53:33.838+0000".toList

/-- Replaces the token wherever it stands. -/
def substitute (t : Text) : Text := Text.replaceAll token timestamp t

/-- Reads a template. -/
def parse (t : Text) : Except Failure Json := (Json.parse (substitute t)).mapError .templateSyntax

/-- The keys of an object template, in order. -/
def columns (template : Json) : Except Failure (List Text) :=
  match template.keys? with
  | some keys => .ok keys
  | none => .error .noColumns

end Recordsmith.Template
