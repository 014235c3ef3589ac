import TextTemplate.File.Path

/-!
# Files

A tree of files below a root, with a working directory in it. A file holds a text, or bytes that are
no text; files and directories have the time of their last change. A path that starts with a slash
is walked from the root, another one from the working directory, part by part: every part but the
last has to lead to a directory, and a part that is empty or a dot, such as the one after a slash at
the end, has to be reached from a directory. Double dots lead to the directory above, and above the
root there is the root. A path has fewer than 4096 bytes and a name at most 255; a path that is too
long is not walked at all, and a name that is too long is refused where the walk comes to it.

## Main definitions

* `FileTree.walk` — where a path leads to.
* `FileTree.read` — the text of a file, or why it cannot be read.
* `FileTree.modified?` — the time of the last change of a file or a directory.
* `FileTree.write`, `FileTree.delete?` — change the tree.
-/

namespace TextTemplate

/-- What a file holds: text, or bytes that are not UTF-8. -/
inductive Content where
  | text (s : String)
  | binary
deriving DecidableEq, Inhabited

/-- The content with these bytes. -/
def Content.ofBytes (bytes : ByteArray) : Content :=
  match String.fromUTF8? bytes with
  | some s => .text s
  | none => .binary

/-- Why a file cannot be read. -/
inductive FileError where
  | notFound
  | notDirectory
  | isDirectory
  | notText
  | nulInName
  | nameTooLong
deriving DecidableEq

namespace FileError

/-- The system's text for the error. -/
def message : FileError → String
  | notFound => "No such file or directory (os error 2)"
  | notDirectory => "Not a directory (os error 20)"
  | isDirectory => "Is a directory (os error 21)"
  | notText => "stream did not contain valid UTF-8"
  | nulInName => "file name contained an unexpected NUL byte"
  | nameTooLong => "File name too long (os error 36)"

end FileError

/-- The text of a content. -/
def Content.read : Content → Except FileError String
  | .text s => .ok s
  | .binary => .error .notText

/-- What stands in a tree under a path. -/
inductive FileEntry where
  | file (content : Content) (modified : Nat)
  | directory (modified : Nat)
deriving DecidableEq

namespace FileEntry

/-- The text of a file; a directory has none. -/
def read : FileEntry → Except FileError String
  | file content _ => content.read
  | directory _ => .error .isDirectory

/-- The time of the last change. -/
def modified : FileEntry → Nat
  | file _ modified | directory modified => modified

end FileEntry

/-- Entries by the names that lead to them from the root, and the names that lead to the working
directory. -/
structure FileTree where
  workingDirectory : List String
  entries : List (List String × FileEntry)
deriving Inhabited

namespace FileTree

/-- A tree with nothing but a working directory. -/
def empty : FileTree := ⟨["work"], []⟩

/-- The entry under a list of names. The root, the working directory and what lies between them are
directories even if nothing else is known of them. -/
def find? (tree : FileTree) (names : List String) : Option FileEntry :=
  match tree.entries.find? fun (other, _) => other == names with
  | some (_, entry) => some entry
  | none => if names <+: tree.workingDirectory then some (.directory 0) else none

/-- How many bytes a path may have. -/
def maxPathBytes : Nat := 4095

/-- How many bytes a name may have. -/
def maxNameBytes : Nat := 255

/-- A place reached on a walk: the names that lead to it, and what stands there. -/
structure Place where
  names : List String
  entry : FileEntry

/-- The place under a list of names, if there is one. -/
def place (tree : FileTree) (names : List String) : Except FileError Place :=
  match tree.find? names with
  | some entry => .ok ⟨names, entry⟩
  | none => .error .notFound

/-- One part further on a walk. -/
def step (tree : FileTree) (part : List Char) (here : Place) : Except FileError Place :=
  match here.entry with
  | .file .. => .error .notDirectory
  | .directory _ =>
    if !Path.counts part then
      .ok here
    else if part = ['.', '.'] then
      tree.place here.names.dropLast
    else if maxNameBytes < (String.ofList part).utf8ByteSize then
      .error .nameTooLong
    else
      tree.place (here.names ++ [String.ofList part])

/-- The names from which a path is walked. -/
def origin (tree : FileTree) (path : Path) : List String :=
  if path.isAbsolute then [] else tree.workingDirectory

/-- The place that a path leads to. -/
def walk (tree : FileTree) (path : Path) : Except FileError Place :=
  let cs := path.text.toList
  if cs.contains '\x00' then
    .error .nulInName
  else if cs = [] then
    .error .notFound
  else if maxPathBytes < path.text.utf8ByteSize then
    .error .nameTooLong
  else do
    let start ← tree.place (tree.origin path)
    (Path.segments cs).foldlM (fun here part => tree.step part here) start

/-- The text of the file under a path. -/
def read (tree : FileTree) (path : Path) : Except FileError String := do
  (← tree.walk path).entry.read

/-- When what stands under a path was last changed. -/
def modified? (tree : FileTree) (path : Path) : Option Nat :=
  match tree.walk path with
  | .ok here => some here.entry.modified
  | .error _ => none

/-- Puts an entry under a list of names. -/
def put (tree : FileTree) (names : List String) (entry : FileEntry) : FileTree :=
  { tree with
    entries := (names, entry) :: tree.entries.filter fun (other, _) => other != names }

/-- The names that one part further lead to; double dots take the last name away. -/
def follow (names : List String) (part : List Char) : List String :=
  if !Path.counts part then names
  else if part = ['.', '.'] then names.dropLast
  else names ++ [String.ofList part]

/-- Follows the parts of a path to a directory and makes what is missing on the way. -/
def makeDirectories (tree : FileTree) (names : List String) :
    List (List Char) → FileTree × List String
  | [] => (tree, names)
  | part :: parts =>
    let names := follow names part
    let tree := if (tree.find? names).isSome then tree else tree.put names (.directory 0)
    tree.makeDirectories names parts

/-- Writes a file and makes the directories on the way to it. -/
def write (tree : FileTree) (path : Path) (content : Content) (modified : Nat) : FileTree :=
  let parts := Path.segments path.text.toList
  let (tree, names) := tree.makeDirectories (tree.origin path) parts.dropLast
  tree.put (follow names (parts.getLast?.getD [])) (.file content modified)

/-- The tree without the file under a path, if there is one. -/
def delete? (tree : FileTree) (path : Path) : Option FileTree :=
  match tree.walk path with
  | .ok ⟨names, .file ..⟩ =>
    some { tree with entries := tree.entries.filter fun (other, _) => other != names }
  | _ => none

end FileTree

end TextTemplate
