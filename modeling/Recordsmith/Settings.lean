import Recordsmith.Options.Decode
import Recordsmith.Toml.Reader

/-!
# Settings

Settings come from a file in TOML: `log_format` is the format of log lines, and `generate` are the
options of a run. What is left out keeps its default, and keys of other names are passed over.

* `Settings.logFormat?` and `Settings.options?` say which values are formats and options;
* `Settings.ofToml?` reads a settings file.
-/

namespace Recordsmith

/-- The format of log lines. -/
inductive LogFormat where
  | text
  | json
deriving DecidableEq, Repr

/-- The format of a name. -/
def LogFormat.named? (name : Text) : Option LogFormat :=
  if name = "text".toList then some .text else if name = "json".toList then some .json else none

/-- Settings of the program. -/
structure Settings where
  logFormat : LogFormat := .text
  options : Options := {}

namespace Settings

/-- A value of an option in JSON. -/
def toJson? : Toml.Value → Option Json
  | .string t => some (.str t)
  | .integer n => some (.int n)
  | _ => none

/-- Sets an option to a value of its type. -/
def set? (o : Options) (key : Options.Key) (v : Toml.Value) : Option Options :=
  (toJson? v).bind (o.set? key)

/-- The options of a table: the fields that it has. -/
def optionsOfMembers? (members : Toml.Members) : Option Options :=
  Options.keys.foldlM (fun o (name, key) =>
    match members.lookup name with
    | some v => set? o key v
    | none => some o) {}

/-- The options of an array: the values of the first fields in order. -/
def optionsOfItems? (items : List Toml.Value) : Option Options :=
  (Options.keys.zip items).foldlM (fun o ((_, key), v) => set? o key v) {}

/-- The options of a value. A date has no fields, and leaves all options as they are. -/
def options? : Toml.Value → Option Options
  | .table _ members | .braces members => optionsOfMembers? members
  | .array items => optionsOfItems? items
  | .date _ => some {}
  | _ => none

/-- The format of log lines that a value names: its name, or a table whose only member is an empty
    table under that name. -/
def logFormat? : Toml.Value → Option LogFormat
  | .string name => LogFormat.named? name
  | .table _ [(name, v)] | .braces [(name, v)] =>
    if v.isEmptyTable then LogFormat.named? name else none
  | _ => none

/-- The settings of the members of a file. -/
def ofMembers? (members : Toml.Members) : Option Settings := do
  let logFormat ←
    match members.lookup "log_format".toList with
    | some v => logFormat? v
    | none => some .text
  let options ←
    match members.lookup "generate".toList with
    | some v => options? v
    | none => some {}
  some ⟨logFormat, options⟩

/-- Reads a settings file. -/
def ofToml? (t : Text) : Option Settings := (Toml.parse? t).bind ofMembers?

end Settings
end Recordsmith
