import Recordsmith.Toml.Scalar

/-!
# Reading TOML

A TOML file is made of lines that set keys to values, and of headers, which open tables.

* `Toml.readValue?` reads a value;
* `Toml.parse?` reads a file as the members of its root table; there is no result if the text is no
  TOML, or if it sets a key or opens a table against the rules of `Toml.Members`.
-/

namespace Recordsmith.Toml

/-! ## Values -/

/-- Reads the items of an array and its closing bracket; `fuel` is more than the length of the
    text. -/
def readItems? (item : Text → Option (Value × Text)) :
    (fuel : Nat) → (before : List Value) → Text → Option (Value × Text)
  | 0, _, _ => none
  | fuel + 1, before, t => do
    match ← afterBlankLines? fuel t with
    | ']' :: rest => some (.array before.reverse, rest)
    | t => do
      let (v, rest) ← item t
      match ← afterBlankLines? fuel rest with
      | ',' :: rest => readItems? item fuel (v :: before) rest
      | ']' :: rest => some (.array (v :: before).reverse, rest)
      | _ => none

/-- Reads the members of a table in braces, of which there is one at least, and its closing
    brace. -/
def readMembers? (item : Text → Option (Value × Text)) :
    (fuel : Nat) → (before : Members) → Text → Option (Value × Text)
  | 0, _, _ => none
  | fuel + 1, before, t => do
    let (path, rest) ← readKey? t
    match rest with
    | '=' :: rest => do
      let (v, rest) ← item (afterSpace rest)
      let members ← before.set? v path
      match afterSpace rest with
      | ',' :: rest => readMembers? item fuel members rest
      | '\x7d' :: rest => some (.braces members, rest)
      | _ => none
    | _ => none

/-- Reads a value that is neither an array nor a table. -/
def readScalar? (t : Text) : Option (Value × Text) :=
  match t with
  | '"' :: _ | '\'' :: _ => (readString? t).map fun (s, rest) => (.string s, rest)
  | t =>
    match afterMoment? t with
    | some rest => some (.date (t.take (t.length - rest.length)), rest)
    | none =>
      let (word, rest) := t.span fun c =>
        c.isAlphanum || c = '_' || c = '+' || c = '-' || c = '.'
      (scalar? word).map fun v => (v, rest)

/-- Reads a value; arrays and tables may be nested `depth` deep. -/
def readValue? : (depth : Nat) → Text → Option (Value × Text)
  | depth, t =>
    match t with
    | '[' :: rest =>
      match depth with
      | 0 => none
      | depth + 1 => readItems? (readValue? depth) (rest.length + 1) [] rest
    | '\x7b' :: rest =>
      match depth, afterSpace rest with
      | 0, _ => none
      | _, '\x7d' :: rest => some (.braces [], rest)
      | depth + 1, _ => readMembers? (readValue? depth) (rest.length + 1) [] rest
    | t => readScalar? t

/-! ## Files -/

/-- What was read of a file: the root table, and the path of the header under which the next lines
    stand. -/
structure State where
  root : Members
  header : List Text

/-- Reads a line that sets a key. -/
def readSetting? (s : State) (t : Text) : Option (State × Text) := do
  let (path, rest) ← readKey? t
  match rest with
  | '=' :: rest => do
    let (v, rest) ← readValue? maxDepth (afterSpace rest)
    let rest ← afterLine? rest
    some ({ s with root := ← s.root.setIn? s.header path v }, rest)
  | _ => none

/-- Reads a header after its first bracket. -/
def readHeader? (s : State) : Text → Option (State × Text)
  | '[' :: t => do
    let (path, rest) ← readKey? t
    let rest ← afterLine? (← Text.dropWord? [']', ']'] rest)
    some (⟨← s.root.appendTable? path, path⟩, rest)
  | t => do
    let (path, rest) ← readKey? t
    let rest ← afterLine? (← Text.dropWord? [']'] rest)
    some (⟨← s.root.openTable? path, path⟩, rest)

/-- Reads the lines of a file; `fuel` is more than the length of the text. -/
def readLines? : (fuel : Nat) → State → Text → Option State
  | 0, _, _ => none
  | fuel + 1, s, t => do
    match ← afterBlankLines? fuel t with
    | [] => some s
    | '[' :: rest => do
      let (s, rest) ← readHeader? s rest
      readLines? fuel s rest
    | t => do
      let (s, rest) ← readSetting? s t
      readLines? fuel s rest

/-- The text after a byte order mark. -/
def afterMark : Text → Text
  | '\uFEFF' :: rest => rest
  | t => t

/-- Reads a file as the members of its root table. -/
def parse? (t : Text) : Option Members :=
  (readLines? (t.length + 1) ⟨[], []⟩ (afterMark t)).map (·.root)

end Recordsmith.Toml
