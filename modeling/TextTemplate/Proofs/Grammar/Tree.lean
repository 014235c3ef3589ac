import TextTemplate.Template.Arena

/-!
# The tree of a template and its nodes

A body is a sequence of texts, directives that stand alone and blocks; a block is a body and what
follows it up to the end of the block. A tree is laid out on nodes from left to right, and the links
between the nodes say how it is built.

## Main definitions

* `Body`, `Branches`: trees.
* `Body.layout`, `Branches.layout`: the nodes of a tree, with their links.

## Main results

* `Body.length_layout`: how many nodes there are.
-/

namespace TextTemplate

mutual

/-- A sequence of texts, directives and blocks. -/
inductive Body where
  | done
  | text (spans : List Span) (rest : Body)
  | action (directive : Directive) (action : Action) (rest : Body)
  | block (directive : Directive) (opener : Opener) (body : Body) (branches : Branches)
      (rest : Body)

/-- What follows the first body of a block: its end, or one more branch. -/
inductive Branches where
  | closed (closer : Directive)
  | branch (directive : Directive) (condition : Option Slot) (body : Body) (more : Branches)

end

mutual

/-- How many nodes a body has. -/
def Body.width : Body → Nat
  | .done => 0
  | .text _ rest => 1 + rest.width
  | .action _ _ rest => 1 + rest.width
  | .block _ _ body branches rest => 1 + body.width + branches.width + 1 + rest.width

/-- How many nodes the rest of a block has in front of the node of its end. -/
def Branches.width : Branches → Nat
  | .closed _ => 0
  | .branch _ _ body more => 2 + body.width + more.width

end

/-- Where the nodes of a body start, if it has any. -/
def Body.start? (body : Body) (place : Nat) : Option Nat :=
  match body with
  | .done => none
  | _ => some place

/-- Where the next branch opens, if there is one, when what follows the body before it starts at
`place`. -/
def Branches.opening? (branches : Branches) (place : Nat) : Option Nat :=
  match branches with
  | .closed _ => none
  | .branch .. => some (place + 1)

/-- The node with the node at this place after it. -/
def Node.followedBy (node : Node) (next : Nat) : Node :=
  { node with next := some next }

/-- The node of a block whose end stands at `terminus`, when its body stands at `place` and the rest
of the block at `after`. -/
def blockNode (d : Directive) (opener : Opener) (body : Body) (branches : Branches)
    (place after terminus : Nat) : Node :=
  (d.node (.block opener (body.start? place) (branches.opening? after) (some terminus))).followedBy
    after

mutual

/-- The nodes of a body whose first node stands at `place`. -/
def Body.layout (place : Nat) : Body → List Node
  | .done => []
  | .text spans rest => (textNode spans).followedBy (place + 1) :: rest.layout (place + 1)
  | .action d a rest => (d.node (.action a)).followedBy (place + 1) :: rest.layout (place + 1)
  | .block d opener body branches rest =>
    let after := place + 1 + body.width
    let terminus := after + branches.width
    blockNode d opener body branches (place + 1) after terminus ::
      (body.layout (place + 1) ++ branches.layout terminus after ++ rest.layout (terminus + 1))

/-- The nodes of the rest of a block that starts at `place` and ends at `terminus`. -/
def Branches.layout (terminus place : Nat) : Branches → List Node
  | .closed closer => [(closer.node .terminal).followedBy (place + 1)]
  | .branch d condition body more =>
    let after := place + 2 + body.width
    (d.node .terminal).followedBy (place + 1) ::
      blockNode d (.conditional condition) body more (place + 2) after terminus ::
      (body.layout (place + 2) ++ more.layout terminus after)

end

mutual

/-- A body is laid out on as many nodes as it is wide. -/
@[simp] theorem Body.length_layout (place : Nat) (body : Body) :
    (body.layout place).length = body.width := by
  cases body with
  | done => rfl
  | text spans rest => simp [Body.layout, Body.width, Body.length_layout, Nat.add_comm]
  | action d a rest => simp [Body.layout, Body.width, Body.length_layout, Nat.add_comm]
  | block d opener body branches rest =>
    simp only [Body.layout, Body.width, List.length_cons, List.length_append,
      Body.length_layout, Branches.length_layout]
    omega

@[simp] theorem Branches.length_layout (terminus place : Nat) (branches : Branches) :
    (branches.layout terminus place).length = branches.width + 1 := by
  cases branches with
  | closed closer => rfl
  | branch d condition body more =>
    simp only [Branches.layout, Branches.width, List.length_cons, List.length_append,
      Body.length_layout, Branches.length_layout]
    omega

end

theorem Body.start?_eq (body : Body) (place : Nat) :
    body.start? place = if body.width = 0 then none else some place := by
  cases body with
  | done => rfl
  | text | action | block => simp [Body.start?, Body.width]

end TextTemplate
