import TextTemplate.Template.Arena
import TextTemplate.Template.Role

/-!
# From pieces to nodes

The pieces of a source become nodes by following them from left to right with a stack of the blocks
that are open. Text is held back until the next directive that is not a comment: a comment that
interrupts a text stands behind it, so that the text stays one. An `@else` stands for two nodes, one
that closes the branch before it and one that opens its own. The first directive that does not fit
is an error, and at the end of the source so is a block that is still open.

## Main definitions

* `OpenBlock`, `Assembly` — the nodes so far and the blocks that are open.
* `Assembly.add` — one more piece.
* `Outline.arena` — the nodes of a source.
-/

namespace TextTemplate

/-- A block whose end has not come yet: the directive that opened it, the place of the node of its
current branch, and the places of those of the branches before it, the latest first. -/
structure OpenBlock where
  first : Directive
  current : Nat
  earlier : List Nat

namespace OpenBlock

/-- The places of the nodes of the block's branches, the latest first. -/
def branches (block : OpenBlock) : List Nat :=
  block.current :: block.earlier

/-- The place of the node that opens the block. -/
def opening (block : OpenBlock) : Nat :=
  block.earlier.getLast?.getD block.current

end OpenBlock

/-- The nodes so far; the open blocks, the innermost first; and the text held back with the comments
in it, the latest first. -/
structure Assembly where
  arena : Arena
  opens : List OpenBlock
  pending : List Span
  deferred : List Directive

namespace Assembly

def empty : Assembly := ⟨.empty, [], [], []⟩

/-- One more node. -/
def append (a : Assembly) (node : Node) : Assembly :=
  { a with arena := a.arena.append node }

/-- Makes the text held back, and the comments behind it, into nodes. -/
def flush (a : Assembly) : Assembly :=
  { a with
    arena := (a.arena.appendText a.pending.reverse).appendComments a.deferred.reverse
    pending := []
    deferred := [] }

/-- One more directive that stands alone. -/
def addAction (a : Assembly) (d : Directive) (action : Action) : Assembly :=
  a.flush.append (d.node (.action action))

/-- One more comment, which does not break the text it stands in. -/
def addComment (a : Assembly) (d : Directive) : Assembly :=
  if a.pending.isEmpty then
    a.append (d.node (.action .comment))
  else
    { a with deferred := d :: a.deferred }

/-- Opens a block. -/
def openBlock (a : Assembly) (d : Directive) (opener : Opener) : Assembly :=
  let a := a.flush
  { a.append (d.opening opener) with opens := ⟨d, a.arena.size, []⟩ :: a.opens }

variable (compiler : Compiler) (source : String)

/-- Goes on with another branch of the innermost block, which has to be at a branch with a
condition. -/
def addBranch (a : Assembly) (d : Directive) : Except CompileError Assembly :=
  let a := a.flush
  match a.opens with
  | [] => .error (d.error (.unexpectedElse d.name))
  | block :: opens =>
    match a.arena.opener? block.current with
    | some (.conditional (some _)) => do
      let condition ← d.branchCondition compiler source
      let next := ⟨block.first, a.arena.size + 1, block.branches⟩
      return { a with
        arena := a.arena.openBranch block.current d condition, opens := next :: opens }
    | _ => .error (d.error (.unexpectedElse d.name))

/-- Makes of the opener of a block, whose node stands at a place, what the end of the block says. -/
def endOpener (arena : Arena) (place : Nat) (d : Directive) : Except CompileError Arena :=
  match arena.opener? place with
  | none => .ok arena
  | some opener =>
    (fun opener => arena.modifyKind place (.withOpener opener)) <$>
      d.ending compiler source opener

/-- Ends the innermost block: closes the body of its last branch, gives a loop its separator, and
links every branch to the end. -/
def closeBlock (a : Assembly) (d : Directive) : Except CompileError Assembly :=
  let a := a.flush
  match a.opens with
  | [] => .error (d.error .unexpectedEnd)
  | block :: opens => do
    let arena ← endOpener compiler source (a.arena.closeBody block.current d) block.opening d
    return { a with opens, arena := block.branches.foldl (·.setTerminus a.arena.size ·) arena }

/-- One more piece. -/
def add (a : Assembly) : Piece → Except CompileError Assembly
  | .text span => .ok { a with pending := span :: a.pending }
  | .directive d => do
    match ← d.role compiler source with
    | .opens opener => return a.openBlock d opener
    | .standsAlone .comment => return a.addComment d
    | .standsAlone action => return a.addAction d action
    | .goesOn => a.addBranch compiler source d
    | .ends => a.closeBlock compiler source d

/-- The nodes at the end of the source, if no block is open. -/
def finish (a : Assembly) : Except CompileError Arena :=
  match a.opens with
  | [] => .ok (a.flush.arena.append (finishNode source.utf8ByteSize))
  | block :: _ => .error (block.first.error (.unclosedBlock block.first.name))

end Assembly

/-- The nodes of a source. A directive whose body is not closed is reported where its sigil stands,
after all that comes before it. -/
def Outline.arena (outline : Outline) (compiler : Compiler) (source : String) :
    Except CompileError Arena := do
  let assembly ← outline.pieces.foldlM (Assembly.add compiler source) Assembly.empty
  match outline.unterminated with
  | some (name, position) => throw ⟨position, name, none, .unterminated '\x7b' '\x7d'⟩
  | none => assembly.finish source

end TextTemplate
