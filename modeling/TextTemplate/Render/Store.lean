import TextTemplate.Template.Basic
import TextTemplate.Value.Basic

/-!
# What outlives a render

Templates remember what their includes led to, and block values refer to declared blocks. Both are
kept in a store that is passed from render to render: a cache for each compiled template, and the
blocks in the order of their declaration.

An include cache holds at most one entry for each include node: the path and the time of change of
the file that was compiled, and the template it gave. An entry serves as long as the path has the
same components and the file the same time of change.

## Main definitions

* `IncludeCache`, `DeclaredBlock`, `Store`.
* `Store.compile` — a new template with an empty cache.
* `Store.cached?`, `Store.remember`, `Store.countCompilation` — the include caches.
* `Store.addBlock`, `Store.block?` — the blocks.
-/

namespace TextTemplate

/-- What the variables of one scope are bound to. -/
abbrev Scope := Bindings Value

/-- A file that an include led to, and the template it gave. -/
structure CachedInclude where
  path : Path
  modified : Option Nat
  template : Template

/-- The entries of a template's include nodes, and how often a file was read and compiled for
them. -/
structure IncludeCache where
  entries : List (Nat × CachedInclude)
  compilations : Nat

/-- A declared block: its name, the template and the place of the node that declared it, and the
scopes and the directory in which it was declared. -/
structure DeclaredBlock where
  name : String
  template : Template
  place : Nat
  scopes : List Scope
  dir : Path

/-- The include caches and the declared blocks. -/
structure Store where
  caches : Array IncludeCache
  blocks : Array DeclaredBlock

namespace Store

def empty : Store := ⟨#[], #[]⟩

/-- Compiles a source to a new template, with an empty include cache. -/
def compile (store : Store) (compiler : Compiler) (source : String) (origin : Option Path) :
    Except CompileError (Template × Store) :=
  (Template.compile compiler source origin store.caches.size).map fun template =>
    (template, { store with caches := store.caches.push ⟨[], 0⟩ })

/-- How often a file was read and compiled for the template's include nodes. -/
def compilations (store : Store) (template : Template) : Nat :=
  (store.caches[template.cache]?.map IncludeCache.compilations).getD 0

/-- Changes the include cache of a template. -/
def modifyCache (store : Store) (template : Template) (f : IncludeCache → IncludeCache) : Store :=
  { store with caches := store.caches.modify template.cache f }

/-- Counts one more file read for the template's include nodes. -/
def countCompilation (store : Store) (template : Template) : Store :=
  store.modifyCache template fun cache => { cache with compilations := cache.compilations + 1 }

/-- The template that an include node last led to, if the path and the time of change agree. -/
def cached? (store : Store) (template : Template) (node : Nat) (path : Path)
    (modified : Option Nat) : Option Template := do
  let cache ← store.caches[template.cache]?
  let entry ← cache.entries.lookup node
  if entry.path.agrees path && entry.modified == modified then some entry.template else none

/-- Remembers what an include node led to. -/
def remember (store : Store) (template : Template) (node : Nat) (entry : CachedInclude) : Store :=
  store.modifyCache template fun cache =>
    { cache with entries := (node, entry) :: cache.entries.filter fun (other, _) => other != node }

/-- Keeps a block; its number is the number of blocks before it. -/
def addBlock (store : Store) (block : DeclaredBlock) : Nat × Store :=
  (store.blocks.size, { store with blocks := store.blocks.push block })

/-- The block with this number. -/
def block? (store : Store) (id : Nat) : Option DeclaredBlock :=
  store.blocks[id]?

end Store

end TextTemplate
