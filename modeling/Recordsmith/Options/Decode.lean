import Recordsmith.Json.Skip
import Recordsmith.Options

/-!
# Options in JSON

* `Options.ofJson?` reads options from a JSON text: an object with some of the fields, or an array
  of the values of the first fields in order. What is left out keeps its default.

A field may be given once, and only with a value of its type; fields of other names are passed over.
-/

namespace Recordsmith.Options

/-- The fields, in order. -/
inductive Key where
  | recordCount
  | nested
  | workerCount
  | delimiter
  | seed
deriving DecidableEq, Repr

/-- The fields with their names, in order. -/
def keys : List (Text × Key) :=
  [("record_count".toList, .recordCount), ("nested_array_size".toList, .nested),
   ("worker_count".toList, .workerCount), ("delimiter".toList, .delimiter),
   ("seed".toList, .seed)]

/-- A value as an unsigned 64-bit word. -/
def word? : Json → Option Nat
  | .int n => if 0 ≤ n then some n.toNat else none
  | _ => none

/-- Sets a field to a value of its type. -/
def set? (o : Options) : Key → Json → Option Options
  | .recordCount, v => (word? v).map fun recordCount => { o with recordCount }
  | .nested, v => (word? v).map fun nested => { o with nested }
  | .workerCount, v => (word? v).map fun workerCount => { o with workerCount }
  | .delimiter, .str delimiter => some { o with delimiter }
  | .delimiter, _ => none
  | .seed, .null => some { o with seed := none }
  | .seed, v => (word? v).map fun n => { o with seed := some n }

/-! ## Text -/

open Json (Input)

/-- Reads a value and sets a field to it. -/
def readField? (o : Options) (key : Key) (i : Input) : Option (Options × Input) := do
  let (v, i) ← (Json.value Json.maxDepth i).toOption
  pure (← o.set? key v, i)

/-- Reads a member of the object, behind the fields `given` so far. -/
def readMember? (o : Options) (given : List Key) (i : Input) :
    Option (Options × List Key × Input) :=
  match i.rest with
  | '"' :: _ => do
    let (name, i) ← (Json.string i.skip).toOption
    match i.skipSpace.rest with
    | ':' :: rest =>
      match keys.lookup name with
      | some key =>
        if key ∈ given then none
        else
          let (o, i) ← o.readField? key ⟨rest, i.place⟩
          some (o, key :: given, i)
      | none =>
        let rest ← Json.skipValue? rest.length rest
        some (o, given, ⟨rest, i.place⟩)
    | _ => none
  | _ => none

/-- Reads the members of the object and its closing brace. -/
def readMembers? : (fuel : Nat) → Options → List Key → Input → Option (Options × Input)
  | 0, _, _, _ => none
  | fuel + 1, o, given, i => do
    let (o, given, i) ← o.readMember? given i.skipSpace
    let i := i.skipSpace
    match i.rest with
    | '}' :: _ => some (o, i.skip)
    | ',' :: _ => readMembers? fuel o given i.skip
    | _ => none

/-- Reads the values of fields in order, and the closing bracket. -/
def readValues? : Options → List Key → Input → Option (Options × Input)
  | _, [], _ => none
  | o, key :: rest, i => do
    let (o, i) ← o.readField? key i
    let i := i.skipSpace
    match i.rest with
    | ']' :: _ => some (o, i.skip)
    | ',' :: _ => readValues? o rest i.skip
    | _ => none

/-- Reads options. -/
def read? (i : Input) : Option (Options × Input) :=
  match i.rest with
  | '{' :: rest =>
    let i := i.skip.skipSpace
    match i.rest with
    | '}' :: _ => some ({}, i.skip)
    | _ => readMembers? (rest.length + 1) {} [] i
  | '[' :: _ =>
    let i := i.skip.skipSpace
    match i.rest with
    | ']' :: _ => some ({}, i.skip)
    | _ => readValues? {} (keys.map (·.2)) i
  | _ => none

/-- Reads a text that holds options. -/
def ofJson? (t : Text) : Option Options := do
  let (o, i) ← read? (Input.skipSpace ⟨t, .start⟩)
  if i.skipSpace.rest.isEmpty then some o else none

end Recordsmith.Options
