import Recordsmith.Value
import Recordsmith.Worker

/-!
# Walking a template

The output has the shape of the template. Objects keep their keys in order, arrays repeat their
items as often as the repetition of arrays says, and leaves become values.

* `Json.walk` walks a template once, with a function `leaf` that evaluates leaves. A leaf whose
  value has no JSON form is left out, and the report counts it;
* `Walk.records`, `Walk.events` walk the root of a template as often as records are asked for.
-/

namespace Recordsmith

/-- The bytes of a tree node in a list that is laid out before it is filled. -/
def nodeBytes : Nat := 72

/-- The greatest size of a list in bytes. -/
def maxBytes : Nat := 9223372036854775807

/-- A list of that many nodes can be laid out. -/
def fits (count : Nat) : Bool := count * nodeBytes ≤ maxBytes

namespace Gen

variable {σ : Type}

/-- Lays out a list of nodes. -/
def reserve (count : Nat) : Gen σ Unit := if fits count then pure () else crash

/-- The results of `n` runs, behind the reversed results `before`. -/
def repeatFrom {α : Type} (g : Gen σ α) : (n : Nat) → (before : List α) → Gen σ (List α)
  | 0, before => pure before.reverse
  | n + 1, before => do repeatFrom g n ((← g) :: before)

/-- The results of `n` runs in order. -/
def replicate {α : Type} (n : Nat) (g : Gen σ α) : Gen σ (List α) := repeatFrom g n []

end Gen

namespace Json

variable {σ : Type} (leaf : Json → Gen σ Value)

/-- The JSON form of a leaf. -/
def walkLeaf (node : Json) : Gen σ (Option Json) := do
  match (← leaf node).toJson? with
  | some v => pure (some v)
  | none => do
    Gen.note Report.recordUnsupported
    pure none

mutual

/-- Walks a template once. -/
def walk : Json → Gen σ (Option Json)
  | obj members => do pure (some (.obj (← walkMembers members)))
  | arr items => do
    let times := (← get).nested
    Gen.reserve (items.length * times)
    let passes ← if items.isEmpty then pure [] else Gen.replicate times (walkItems items)
    pure (some (.arr passes.flatten))
  | null => pure (some .null)
  | bool b => walkLeaf leaf (.bool b)
  | int n => walkLeaf leaf (.int n)
  | float x => walkLeaf leaf (.float x)
  | str t => walkLeaf leaf (.str t)

/-- Walks the members of an object once. -/
def walkMembers : List (Text × Json) → Gen σ (List (Text × Json))
  | [] => pure []
  | (key, node) :: rest => do
    let v ← walk node
    let others ← walkMembers rest
    pure (match v with | some v => (key, v) :: others | none => others)

/-- Walks the items of an array once. -/
def walkItems : List Json → Gen σ (List Json)
  | [] => pure []
  | node :: rest => do
    let v ← walk node
    let others ← walkItems rest
    pure (match v with | some v => v :: others | none => others)

end

/-- One record of an object template. -/
def walkObject (members : Members) : Gen σ Json := do pure (.obj (← walkMembers leaf members))

end Json

namespace Walk

variable {σ : Type} (leaf : Json → Gen σ Value)

/-- The objects of an object template, as many as asked for. -/
def objects (members : Json.Members) (count : Nat) : Gen σ (List Json) := do
  Gen.reserve count
  Gen.replicate count (Json.walkObject leaf members)

/-- The records of a template: as many objects as asked for from an object, one array from an array,
    and none from any other root. -/
def records (template : Json) (count : Nat) : Gen σ (List Json) :=
  match template with
  | .obj members => objects leaf members count
  | .arr items => do pure (← Json.walk leaf (.arr items)).toList
  | _ => pure []

/-- The records of a template, one line each. -/
def lines (template : Json) (count : Nat) : Gen σ (List Text) := do
  pure ((← records leaf template count).map Json.render)

/-- The lines of an object template; any other template has none. -/
def events (template : Json) (count : Nat) : Gen σ (List Text) :=
  match template with
  | .obj members => do pure ((← objects leaf members count).map Json.render)
  | _ => pure []

end Walk
end Recordsmith
