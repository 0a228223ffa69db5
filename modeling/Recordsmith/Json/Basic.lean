import Recordsmith.Text.Basic

/-!
# JSON values

* `Json` is a JSON value. Integers and doubles are kept apart, and an object keeps its members in
  order;
* `Json.Members.put` sets a member of an object: a new key goes to the end, a key that is there
  keeps its place and takes the new value.
-/

namespace Recordsmith

/-- A JSON value. -/
inductive Json where
  | null
  | bool (b : Bool)
  /-- An integer that fits a signed or an unsigned 64-bit word. -/
  | int (n : Int)
  /-- A finite double. -/
  | float (x : Float)
  | str (t : Text)
  | arr (items : List Json)
  | obj (members : List (Text × Json))

namespace Json

/-- Members of an object, in order. -/
abbrev Members := List (Text × Json)

/-- Sets a member. -/
def Members.put (key : Text) (value : Json) : Members → Members
  | [] => [(key, value)]
  | (k, v) :: rest => if k = key then (key, value) :: rest else (k, v) :: put key value rest

/-- The value of a member. -/
def Members.get? (key : Text) (members : Members) : Option Json :=
  (members.find? fun (k, _) => k = key).map (·.2)

/-- The value of a member of an object. -/
def get? (key : Text) : Json → Option Json
  | obj members => Members.get? key members
  | _ => none

/-- The keys of an object, in order. -/
def keys? : Json → Option (List Text)
  | obj members => some (members.map (·.1))
  | _ => none

/-- The value is an object. -/
def isObject : Json → Bool
  | obj _ => true
  | _ => false

/-- The value is an array. -/
def isArray : Json → Bool
  | arr _ => true
  | _ => false

end Json
end Recordsmith
