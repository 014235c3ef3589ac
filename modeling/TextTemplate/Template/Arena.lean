import TextTemplate.Template.Action

/-!
# Nodes and links

A template is executed as a list of nodes in the order of the source, linked by their places in it.
Every node but the last links to another one (`next`): the node after it, or, if it opens a body,
the node that closes the body. The latter also links to the first node of its body (`nested`), to
the branch after it (`alternative`) and to the node of the `@end` of its block (`terminus`).

Nodes are linked as they come. A node that is appended becomes the next one of the node before it,
and the links of a node that opens a body are set when the nodes they lead to have been appended.

## Main definitions

* `NodeKind`, `Node` — nodes with their links.
* `Arena` — the nodes of a template.
* `Arena.append`, `Arena.demarcate`, `Arena.setAlternative`, `Arena.setTerminus` — set links.
* `Arena.closeBody`, `Arena.openBranch` — the nodes that end a body and go on with another one.
-/

namespace TextTemplate

/-- What a node does. -/
inductive NodeKind where
  | text (spans : List Span)
  | action (a : Action)
  | block (opener : Opener) (nested alternative terminus : Option Nat)
  | terminal
  | finish

/-- A node: the span it covers, the name and the body of its directive, the node after it, and what
it does. -/
structure Node where
  span : Span
  name : String
  body : Span
  next : Option Nat
  kind : NodeKind

namespace NodeKind

/-- What the node of a block does with its body. -/
def opener? : NodeKind → Option Opener
  | block opener _ _ _ => some opener
  | _ => none

/-- Where the nodes of a block's body start. -/
def nested? : NodeKind → Option Nat
  | block _ nested _ _ => nested
  | _ => none

def withOpener (opener : Opener) : NodeKind → NodeKind
  | block _ nested alternative terminus => block opener nested alternative terminus
  | kind => kind

def withNested (nested : Option Nat) : NodeKind → NodeKind
  | block opener _ alternative terminus => block opener nested alternative terminus
  | kind => kind

def withAlternative (alternative : Option Nat) : NodeKind → NodeKind
  | block opener nested _ terminus => block opener nested alternative terminus
  | kind => kind

def withTerminus (terminus : Option Nat) : NodeKind → NodeKind
  | block opener nested alternative _ => block opener nested alternative terminus
  | kind => kind

end NodeKind

/-- The node of a directive, with no node after it yet. -/
def Directive.node (d : Directive) (kind : NodeKind) : Node :=
  ⟨d.span, d.name, d.body, none, kind⟩

/-- The node of a directive that opens a body, with none of its links yet. -/
def Directive.opening (d : Directive) (opener : Opener) : Node :=
  d.node (.block opener none none none)

/-- The node of a text, which covers what its spans cover and what stands between them. -/
def textNode (spans : List Span) : Node :=
  let start := (spans.head?.map Span.start).getD 0
  let stop := (spans.getLast?.map Span.stop).getD 0
  ⟨⟨start, stop⟩, "", ⟨start, stop⟩, none, .text spans⟩

/-- The node that ends a template, at the end of its source. -/
def finishNode (length : Nat) : Node :=
  ⟨⟨length, length⟩, "", ⟨length, length⟩, none, .finish⟩

/-- The nodes of a template. -/
structure Arena where
  nodes : Array Node

namespace Arena

def empty : Arena := ⟨#[]⟩

/-- How many nodes there are, which is the place of the next one. -/
def size (arena : Arena) : Nat :=
  arena.nodes.size

/-- Changes what the node at a place does. -/
def modifyKind (arena : Arena) (place : Nat) (f : NodeKind → NodeKind) : Arena :=
  ⟨arena.nodes.modify place fun node => { node with kind := f node.kind }⟩

/-- Puts a node behind the others and links the one before it to it. -/
def append (arena : Arena) (node : Node) : Arena :=
  ⟨(arena.nodes.modify (arena.size - 1) fun last => { last with next := some arena.size }).push
    node⟩

/-- Puts the node of a text behind the others, if there is any text. -/
def appendText (arena : Arena) (spans : List Span) : Arena :=
  if spans.isEmpty then arena else arena.append (textNode spans)

/-- Puts the nodes of comments behind the others. -/
def appendComments (arena : Arena) (comments : List Directive) : Arena :=
  comments.foldl (fun arena d => arena.append (d.node (.action .comment))) arena

/-- What the node of a block at a place does with its body. -/
def opener? (arena : Arena) (place : Nat) : Option Opener :=
  arena.nodes[place]?.bind fun node => node.kind.opener?

/-- Makes the nodes between the node that opens a body and the one that closes it the body. What
came after the first is nested in it, unless it is the closer itself. -/
def demarcate (arena : Arena) (place closer : Nat) : Arena :=
  ⟨arena.nodes.modify place fun node =>
    { node with
      next := some closer
      kind := node.kind.withNested (node.next.filter (· ≠ closer)) }⟩

/-- Links the node of a branch to that of the branch behind it. -/
def setAlternative (arena : Arena) (place branch : Nat) : Arena :=
  arena.modifyKind place (.withAlternative (some branch))

/-- Links the node of a branch to that of the end of the block. -/
def setTerminus (arena : Arena) (terminus place : Nat) : Arena :=
  arena.modifyKind place (.withTerminus (some terminus))

/-- Closes the body that the node at a place opens with a node of its own. -/
def closeBody (arena : Arena) (place : Nat) (d : Directive) : Arena :=
  (arena.append (d.node .terminal)).demarcate place arena.size

/-- Closes the body of a branch, whose node stands at a place, and opens another branch. -/
def openBranch (arena : Arena) (place : Nat) (d : Directive) (condition : Option Slot) : Arena :=
  let arena := arena.closeBody place d
  (arena.append (d.opening (.conditional condition))).setAlternative place arena.size

end Arena

end TextTemplate
