import Recordsmith.Text.Basic

/-!
# TOML values

* `Toml.Value` is a value of a TOML file. A table knows what has made it (`Toml.Maker`), because
  that decides which lines may still add to it;
* `Members.set?` sets a key with points in a table, `Members.openTable?` and
  `Members.appendTable?` are what the headers `[key]` and `[[key]]` do.

A key is set once. A table in braces is complete, and a table of a header takes no keys with points
from outside. A header opens a table once; it may open one that stands on the way to other headers,
but none that keys with points have made.
-/

namespace Recordsmith.Toml

/-- What has made a table. -/
inductive Maker where
  /-- A header of a table below it. -/
  | way
  /-- Its own header. -/
  | header
  /-- A key with points. -/
  | key
deriving DecidableEq, Repr

/-- A value of a TOML file. -/
inductive Value where
  | string (t : Text)
  | integer (n : Int)
  | float (x : Float)
  | boolean (b : Bool)
  /-- A date, a time of day or both, as it is written. -/
  | date (t : Text)
  | array (items : List Value)
  /-- A table in braces. -/
  | braces (members : List (Text × Value))
  | table (maker : Maker) (members : List (Text × Value))
  /-- The tables of the headers `[[key]]`; the earlier ones stand in reverse order. -/
  | tables (earlier : List (List (Text × Value))) (last : List (Text × Value))

/-- The value is a table without members. -/
def Value.isEmptyTable : Value → Bool
  | .table _ members | .braces members => members.isEmpty
  | _ => false

/-- Members of a table. -/
abbrev Members := List (Text × Value)

namespace Members

/-- Sets a member. -/
def put (key : Text) (v : Value) : Members → Members
  | [] => [(key, v)]
  | (k, old) :: rest => if k = key then (key, v) :: rest else (k, old) :: put key v rest

/-! ## Keys -/

/-- Tables to which a key with points may lead: `last` tells that the next part of the key is the
    last one. A table on the way to headers may be passed, but takes no member itself. -/
def takesKeys (last : Bool) : Maker → Bool
  | .way => !last
  | .header => false
  | .key => true

/-- Sets a key to a value. Its parts lead from table to table; tables that are not there are
    made. -/
def set? (v : Value) : (path : List Text) → Members → Option Members
  | [], _ => none
  | [key], members => if (members.lookup key).isSome then none else some (members.put key v)
  | key :: path, members =>
    match members.lookup key with
    | none => do some (members.put key (.table .key (← set? v path [])))
    | some (.table maker inner) =>
      if takesKeys (path.length = 1) maker then do
        some (members.put key (.table maker (← set? v path inner)))
      else none
    | some (.tables earlier last) =>
      if path.length = 1 then none
      else do some (members.put key (.tables earlier (← set? v path last)))
    | some _ => none

/-! ## Headers -/

/-- Changes what stands at the path of a header. Among the tables of a header `[[key]]` the path
    leads to the last; tables that are not there are made. -/
def update? (change : Option Value → Option Value) : (path : List Text) → Members → Option Members
  | [], _ => none
  | [key], members => do some (members.put key (← change (members.lookup key)))
  | key :: path, members =>
    match members.lookup key with
    | none => do some (members.put key (.table .way (← update? change path [])))
    | some (.table maker inner) => do
      some (members.put key (.table maker (← update? change path inner)))
    | some (.tables earlier last) => do
      some (members.put key (.tables earlier (← update? change path last)))
    | some _ => none

/-- Opens a table: a new one, or one that stands on the way to other headers. -/
def openTable? : (path : List Text) → Members → Option Members :=
  update? fun
    | none => some (.table .header [])
    | some (.table .way inner) => some (.table .header inner)
    | some _ => none

/-- Opens a further table among the tables of a path. -/
def appendTable? : (path : List Text) → Members → Option Members :=
  update? fun
    | none => some (.tables [] [])
    | some (.tables earlier last) => some (.tables (last :: earlier) [])
    | some _ => none

/-- Sets a key in the table that a header has opened; the root table has no header. -/
def setIn? (header path : List Text) (v : Value) (members : Members) : Option Members :=
  if header.isEmpty then members.set? v path
  else
    members.update? (fun
      | some (.table maker inner) => do some (.table maker (← set? v path inner))
      | some (.tables earlier last) => do some (.tables earlier (← set? v path last))
      | _ => none) header

end Members
end Recordsmith.Toml
