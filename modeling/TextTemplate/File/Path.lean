/-!
# Paths

A path is kept as the text it was written as, because messages show that text. Two paths name the
same place of the cache when their components agree: repeated slashes, slashes at the end and dots
inside a path do not count, while a leading dot and double dots do.

## Main definitions

* `Path.components` — the components of a path.
* `Path.join` — a path below a directory; an absolute path replaces the directory.
* `Path.parent?` — the path without its last component.
-/

namespace TextTemplate

/-- A path as it was written. -/
structure Path where
  text : String
deriving DecidableEq, Inhabited

namespace Path

/-- The parts of a text between slashes. -/
def segments : List Char → List (List Char)
  | [] => [[]]
  | c :: cs =>
    if c = '/' then
      [] :: segments cs
    else
      match segments cs with
      | [] => [[c]]
      | first :: rest => (c :: first) :: rest

/-- A component of a path. -/
inductive Component where
  | root
  | here
  | up
  | name (s : String)
deriving DecidableEq

/-- Whether the path starts at the root. -/
def isAbsolute (path : Path) : Bool :=
  path.text.toList.head? == some '/'

/-- Whether a part of a path that is not its first part counts as a component. -/
def counts (part : List Char) : Bool :=
  part != [] && part != ['.']

/-- The component that a part of a path stands for. -/
def Component.ofPart (part : List Char) : Component :=
  if part = ['.'] then .here else if part = ['.', '.'] then .up else .name (String.ofList part)

/-- The components of a path. -/
def components (path : Path) : List Component :=
  match segments path.text.toList with
  | [] => []
  | first :: rest =>
    let inner := (rest.filter counts).map Component.ofPart
    if path.isAbsolute then .root :: inner
    else if first = [] then inner
    else .ofPart first :: inner

/-- Whether two paths have the same components. -/
def agrees (p q : Path) : Bool :=
  p.components == q.components

/-- The path `target` seen from the directory `dir`. -/
def join (dir target : Path) : Path :=
  if target.isAbsolute then
    target
  else if dir.text = "" ∨ dir.text.toList.getLast? = some '/' then
    ⟨dir.text ++ target.text⟩
  else
    ⟨dir.text ++ "/" ++ target.text⟩

/-- Takes the parts that do not count from the end of a path's inner parts. -/
def dropIdle (parts : List (List Char)) : List (List Char) :=
  (parts.reverse.dropWhile fun part => !counts part).reverse

/-- The text of a path with these parts. -/
def ofParts (parts : List (List Char)) : Path :=
  ⟨String.intercalate "/" (parts.map String.ofList)⟩

/-- The path without its last component, for a path with a component other than the root. -/
def parent? (path : Path) : Option Path :=
  match segments path.text.toList with
  | [] => none
  | first :: rest =>
    match (dropIdle rest).reverse with
    | [] => if first = [] then none else some ⟨""⟩
    | _ :: before =>
      match dropIdle before.reverse with
      | [] => some (if path.isAbsolute then ⟨"/"⟩ else ofParts [first])
      | inner => some (ofParts (first :: inner))

end Path

end TextTemplate
