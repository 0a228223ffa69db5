import Recordsmith.Text.Basic

/-!
# Directories

The files around a program, as far as its paths reach them.

* `Place` is a place in the file system, seen from the working directory or from the root;
* `Directory` holds files by their places;
* `Directory.follow?` follows a path, name by name, and each name must stand in a directory;
* `Directory.entry` tells what stands at a path, `Directory.canWrite` whether a file can be written
  there, and `Directory.write` writes it.

Every directory that holds a file is there, and so are the working directory and all those around
it, and at the root `/dev` and `/tmp`. The file `/dev/null` is there too; it is empty and stays
empty.
-/

namespace Recordsmith

/-- What stands at a path. -/
inductive Entry where
  | missing
  /-- A directory, or a file that is no text. -/
  | unreadable
  | file (content : Text)
deriving DecidableEq

/-! ## Places -/

/-- A place in the file system: from the root or from the working directory so many steps up, and
    then down by the names. -/
structure Place where
  fromRoot : Bool
  up : Nat
  names : List Text
deriving DecidableEq

namespace Place

/-- The place of names below the working directory. -/
def below (names : List Text) : Place := ⟨false, 0, names⟩

/-- The place around a place; nothing is around the root. -/
def around (p : Place) : Place :=
  if !p.names.isEmpty then { p with names := p.names.dropLast }
  else if p.fromRoot then p
  else { p with up := p.up + 1 }

/-- The place is around another one, at any distance. -/
def isAround (p q : Place) : Bool :=
  p.fromRoot = q.fromRoot && p.up = q.up && p.names.isPrefixOf q.names && p.names ≠ q.names

/-- The directories that the system has at its root. -/
def ofSystem : List Place := [⟨true, 0, ["dev".toList]⟩, ⟨true, 0, ["tmp".toList]⟩]

/-- The place of the file that takes everything and holds nothing. -/
def null : Place := ⟨true, 0, ["dev".toList, "null".toList]⟩

end Place

/-! ## Paths -/

/-- Files by their places. -/
structure Directory where
  files : List (Place × Text)

namespace Directory

/-- How many bytes a path may have. -/
def maxPathSize : Nat := 4095

/-- How many bytes a name may have. -/
def maxNameSize : Nat := 255

/-- The pieces of a path between slashes. -/
def pieces : Text → List Text
  | [] => [[]]
  | c :: rest =>
    match c, pieces rest with
    | '/', later => [] :: later
    | c, piece :: later => (c :: piece) :: later
    | c, [] => [[c]]

/-- There is a directory at a place. -/
def isDirectory (d : Directory) (p : Place) : Bool :=
  p.names.isEmpty || Place.ofSystem.contains p || d.files.any fun (q, _) => p.isAround q

/-- Follows a piece of a path, which must start in a directory. -/
def enter? (d : Directory) (p : Place) (piece : Text) : Option Place :=
  if !d.isDirectory p then none
  else if piece = [] ∨ piece = ['.'] then some p
  else if piece = ['.', '.'] then some p.around
  else if Text.utf8Size piece ≤ maxNameSize then some { p with names := p.names ++ [piece] }
  else none

/-- The place to which a path leads. -/
def follow? (d : Directory) (path : Text) : Option Place :=
  if Text.utf8Size path ≤ maxPathSize then
    (pieces path).foldlM d.enter? ⟨path.head? = some '/', 0, []⟩
  else none

/-! ## Files -/

/-- The files of some paths that go down from the working directory. -/
def ofList (files : List (Text × Text)) : Directory :=
  ⟨files.map fun (path, content) =>
    (Place.below ((pieces path).filter (!·.isEmpty)), content)⟩

/-- The content of the file at a place. -/
def content? (d : Directory) (p : Place) : Option Text :=
  if p = Place.null then some [] else d.files.lookup p

/-- What stands at a path. -/
def entry (d : Directory) (path : Text) : Entry :=
  match d.follow? path with
  | none => .missing
  | some p =>
    if d.isDirectory p then .unreadable
    else
      match d.content? p with
      | some content => .file content
      | none => .missing

/-- A file can be written at the path: the path leads to a name in a directory, under which there
    is no directory. -/
def canWrite (d : Directory) (path : Text) : Bool :=
  match d.follow? path with
  | some p => !d.isDirectory p
  | none => false

/-- Writes a file. -/
def write (d : Directory) (path content : Text) : Directory :=
  match d.follow? path with
  | some p => ⟨(p, content) :: d.files.filter (·.1 ≠ p)⟩
  | none => d

end Directory
end Recordsmith
