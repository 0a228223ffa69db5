import Recordsmith.Json.Writer

/-!
# Writing JSON in lines

* `Json.renderLines` writes a value with one item or member to a line, each level two blanks further
  to the right.

Empty arrays and objects stay in one line.
-/

namespace Recordsmith.Json

/-- A new line at a level. -/
def newLine (level : Nat) : Text := '\n' :: List.replicate (2 * level) ' '

mutual

/-- A value whose lines stand at a level. -/
def renderAt (level : Nat) : Json → Text
  | arr (v :: items) => '[' :: (renderItemsAt level (v :: items) ++ newLine level ++ [']'])
  | obj (m :: members) => '{' :: (renderMembersAt level (m :: members) ++ newLine level ++ ['}'])
  | v => render v

/-- The items of an array, each on a line of its own. -/
def renderItemsAt (level : Nat) : List Json → Text
  | [] => []
  | [v] => newLine (level + 1) ++ renderAt (level + 1) v
  | v :: w :: rest =>
    newLine (level + 1) ++ renderAt (level + 1) v ++ ',' :: renderItemsAt level (w :: rest)

/-- The members of an object, each on a line of its own. -/
def renderMembersAt (level : Nat) : List (Text × Json) → Text
  | [] => []
  | [(k, v)] => newLine (level + 1) ++ quote k ++ [':', ' '] ++ renderAt (level + 1) v
  | (k, v) :: m :: rest =>
    newLine (level + 1) ++ quote k ++ [':', ' '] ++ renderAt (level + 1) v ++
      ',' :: renderMembersAt level (m :: rest)

end

/-- A value in lines. -/
def renderLines (v : Json) : Text := renderAt 0 v

end Recordsmith.Json
