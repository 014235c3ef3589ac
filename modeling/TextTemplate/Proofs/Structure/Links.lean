import TextTemplate.Proofs.Steps
import TextTemplate.Proofs.Structure.Walk

/-!
# Following the links is walking the tree

A chain of nodes that starts where a body is laid out runs that body and then goes on behind it.
The body of a block or branch is followed by a terminal node, at which the chain inside it stops,
and the block itself goes on behind the node of its end.

## Main definitions

* `Template.Holds`: a stretch of the nodes of a template.

## Main results

* `Body.chain_eq`: a chain of nodes runs the body that is laid out on them.
* `Level.above_eq_structural`: at every level, following the links is walking the trees.
* `run_eq_walk`: a render is a walk over the tree of its template.
-/

namespace TextTemplate

open Level

/-! ### Stretches of nodes -/

namespace Template

variable {template : Template}

/-- The nodes of the template from a place on start with these. -/
def Holds (template : Template) (place : Nat) (nodes : List Node) : Prop :=
  nodes <+: template.program.nodes.toList.drop place

theorem Holds.append {place : Nat} {nodes more : List Node}
    (h : template.Holds place (nodes ++ more)) :
    template.Holds place nodes ∧ template.Holds (place + nodes.length) more := by
  obtain ⟨last, h⟩ := h
  constructor
  · exact ⟨more ++ last, by rw [← List.append_assoc, h]⟩
  · refine ⟨last, ?_⟩
    rw [← List.drop_drop, ← h, List.append_assoc, List.drop_left]

theorem Holds.cons {place : Nat} {node : Node} {nodes : List Node}
    (h : template.Holds place (node :: nodes)) :
    template.program.node? place = some node ∧ template.Holds (place + 1) nodes := by
  have hsplit : template.Holds place ([node] ++ nodes) := h
  refine ⟨?_, hsplit.append.2⟩
  obtain ⟨last, h⟩ := h
  have hplace := congrArg (fun nodes => nodes[0]?) h
  simpa [Program.node?] using hplace.symm

theorem lt_of_node? {place : Nat} {node : Node} (h : template.program.node? place = some node) :
    place < template.program.nodes.size :=
  (Array.getElem?_eq_some_iff.1 h).1

end Template

/-! ### Steps of a chain -/

namespace Level

variable {level : Level} {template : Template}

/-- A result that depends on nothing is no part of the step that is located. -/
theorem located_bind_pure {α β : Type} (offset : Nat) (name : String) (step : RenderM α) (b : β) :
    (located template offset name do let _ ← step; return b) =
      (do let _ ← located template offset name step; return b) := by
  funext state
  change (located template offset name (step >>= fun _ => pure b)).run.run state =
    (located template offset name step >>= fun _ => pure b).run.run state
  rw [located, run_adapt, run_bind, run_bind, located, run_adapt]
  rcases step.run.run state with ⟨_ | _, after⟩ <;> rfl

variable {left place : Nat} {node : Node}

/-- A node that stands at a place leaves room for one more step. -/
theorem exists_left_of_node? (h : template.program.node? place = some node)
    (hleft : template.program.nodes.size ≤ left + place) :
    ∃ fewer, left = fewer + 1 ∧ template.program.nodes.size ≤ fewer + (place + 1) := by
  have hplace := Template.lt_of_node? h
  exact ⟨left - 1, by omega, by omega⟩

/-- A chain runs the node at its start, and then the chain at the node after it. -/
theorem chain_of_runNode {step : RenderM Unit} {next : Option Nat}
    (h : template.program.node? place = some node)
    (hrun : level.runNode template (level.chain template left) left place node =
      (do step; return next)) :
    level.chain template (left + 1) (some place) =
      (do located template node.span.start node.name step; level.chain template left next) := by
  simp only [chain, h]
  rw [hrun, located_bind_pure, bind_assoc]
  rfl

/-- A chain stops at a terminal node. -/
theorem chain_of_terminal {d : Directive}
    (h : template.program.node? place = some ((d.node .terminal).followedBy (place + 1))) :
    level.chain template left (some place) = pure () := by
  cases left with
  | zero => rfl
  | succ left =>
    simp only [chain, h]
    cases left <;> rfl

/-- A chain stops at the node that ends the template. -/
theorem chain_of_finish {length : Nat}
    (h : template.program.node? place = some (finishNode length)) :
    level.chain template left (some place) = pure () := by
  cases left with
  | zero => rfl
  | succ left =>
    simp only [chain, h]
    cases left <;> rfl

/-- A node that opens no body leads to none. -/
theorem runPart_of_nested?_eq_none (h : template.program.node? place = some node)
    (hnested : node.kind.nested? = none) :
    level.runPart template (.bodyAt place) = pure () := by
  rw [runPart, Program.start?, h, Option.bind_some, hnested]
  cases template.program.nodes.size <;> rfl

/-- A chain goes on behind the end of a block. -/
theorem chain_of_block {inside after terminus : Nat} {d closer : Directive} {opener : Opener}
    {body : Body} {branches : Branches} {step : RenderM Unit}
    (h : template.program.node? place =
      some (blockNode d opener body branches inside after terminus))
    (hterminus : template.program.node? terminus =
      some ((closer.node .terminal).followedBy (terminus + 1)))
    (hrun : level.runNode template (level.chain template left) left place
      (blockNode d opener body branches inside after terminus) =
        (do step; return (template.program.node? terminus).bind Node.next)) :
    level.chain template (left + 1) (some place) = (do
      located template d.span.start d.name step
      level.chain template left (some (terminus + 1))) := by
  rw [hterminus] at hrun
  exact chain_of_runNode h hrun

/-- The first branch is run if it is taken, and else one of the others. -/
theorem runBranches_of_node? {runBody : Option Nat → RenderM Unit}
    {fewer inside after terminus : Nat}
    {d : Directive} {condition : Option Slot} {body : Body} {branches : Branches}
    (h : template.program.node? place =
      some (blockNode d (.conditional condition) body branches inside after terminus)) :
    level.runBranches template runBody (fewer + 1) (some place) = (do
      if ← level.isTaken template d.span.start d.name condition then
        runBody (body.start? inside)
      else
        level.runBranches template runBody fewer (branches.opening? after)) := by
  rw [runBranches, h]
  rfl

end Level

/-! ### Where the directives of a block stand -/

section Links

variable {level : Level} {template : Template}

/-- The rest of a block starts with a terminal node. -/
theorem Branches.node?_of_holds {terminus place : Nat} {branches : Branches}
    (h : template.Holds place (branches.layout terminus place)) :
    ∃ d : Directive, template.program.node? place =
      some ((d.node .terminal).followedBy (place + 1)) := by
  cases branches with
  | closed closer => exact ⟨closer, h.cons.1⟩
  | branch d condition body more => exact ⟨d, h.cons.1⟩

/-- The rest of a block ends with the node of its last directive. -/
theorem Branches.node?_closer_of_holds {terminus place : Nat} :
    ∀ {branches : Branches}, template.Holds place (branches.layout terminus place) →
      template.program.node? (place + branches.width) =
        some ((branches.closer.node .terminal).followedBy (place + branches.width + 1))
  | .closed _, h => h.cons.1
  | .branch d condition body more, h => by
    have hmore := h.cons.2.cons.2.append.2
    rw [Body.length_layout] at hmore
    have hplace : place + (Branches.branch d condition body more).width =
        place + 1 + 1 + body.width + more.width := by
      simp only [Branches.width]
      omega
    rw [hplace]
    have hlast : template.Holds (place + 1 + 1 + body.width)
        (more.layout terminus (place + 2 + body.width)) := hmore
    exact Branches.node?_closer_of_holds hlast

/-! ### Bodies and blocks -/

/-- Where a body ends at a terminal node, the chain of a block's body runs the body and nothing
else. -/
theorem Body.chain_start? {left place : Nat} {body : Body}
    (h : level.chain template left (some place) = body.walk level template place) :
    level.chain template left (body.start? place) = body.walk level template place := by
  cases body with
  | done => cases left <;> rfl
  | text | action | block => exact h

mutual

/-- The chain at the first node of a body runs the body, and then the chain behind it. -/
theorem Body.chain_eq {left place : Nat} {after : RenderM Unit} :
    ∀ {body : Body}, template.Holds place (body.layout place) →
      template.program.nodes.size ≤ left + place →
      (∀ left, template.program.nodes.size ≤ left + (place + body.width) →
        level.chain template left (some (place + body.width)) = after) →
      level.chain template left (some place) = (do body.walk level template place; after)
  | .done, _, hleft, hafter => by
    rw [Body.walk, pure_bind]
    exact hafter left hleft
  | .text spans rest, h, hleft, hafter => by
    obtain ⟨hnode, hrest⟩ := h.cons
    obtain ⟨fewer, rfl, hfewer⟩ := exists_left_of_node? hnode hleft
    rw [chain_of_runNode hnode rfl, Body.walk, bind_assoc]
    exact congrArg _ (funext fun _ => Body.chain_eq hrest hfewer
      (by simpa [Body.width, Nat.add_assoc] using hafter))
  | .action d a rest, h, hleft, hafter => by
    obtain ⟨hnode, hrest⟩ := h.cons
    obtain ⟨fewer, rfl, hfewer⟩ := exists_left_of_node? hnode hleft
    rw [chain_of_runNode hnode rfl, Body.walk, bind_assoc]
    exact congrArg _ (funext fun _ => Body.chain_eq hrest hfewer
      (by simpa [Body.width, Nat.add_assoc] using hafter))
  | .block d opener body branches rest, h, hleft, hafter => by
    obtain ⟨hnode, hinside⟩ := h.cons
    obtain ⟨hblock, hrest⟩ := hinside.append
    obtain ⟨hbody, hbranches⟩ := hblock.append
    simp only [List.length_append, Body.length_layout, Branches.length_layout] at hrest hbranches
    obtain ⟨fewer, rfl, hfewer⟩ := exists_left_of_node? hnode hleft
    obtain ⟨closer, hcloser⟩ := Branches.node?_of_holds hbranches
    have hterminus := Branches.node?_closer_of_holds hbranches
    have hnested : level.chain template fewer (body.start? (place + 1)) =
        body.walk level template (place + 1) :=
      Body.chain_start? <| by
        rw [Body.chain_eq hbody hfewer fun _ _ => chain_of_terminal hcloser]
        exact bind_pure_unit
    have hlast : level.chain template fewer (some (place + 1 + body.width + branches.width + 1)) =
        (do rest.walk level template (place + 1 + body.width + branches.width + 1); after) :=
      Body.chain_eq (by simpa [Nat.add_assoc] using hrest) (by omega)
        (by simpa [Body.width, Nat.add_assoc] using hafter)
    cases opener with
    | conditional condition =>
      have hbranch : level.runBranches template (level.chain template fewer) (fewer + 1)
          (some place) = _ := runBranches_of_node? hnode
      rw [hnested, Branches.runBranches_eq hbranches (by omega) (by omega)] at hbranch
      rw [Body.walk, bind_assoc, ← hlast]
      exact chain_of_block hnode hterminus (congrArg (· >>= _) hbranch)
    | loop bindings separator =>
      rw [Body.walk, bind_assoc, ← hlast, ← hnested]
      exact chain_of_block hnode hterminus rfl
    | declare name =>
      rw [Body.walk, bind_assoc, ← hlast]
      exact chain_of_block hnode hterminus rfl
    | custom custom =>
      have hending : endingOf template (some (place + 1 + body.width + branches.width)) =
          some (branches.closer.body.slice template.source) := by
        rw [endingOf, Option.bind_some, hterminus]
        rfl
      rw [Body.walk, bind_assoc, ← hlast, ← hnested, ← hending]
      exact chain_of_block hnode hterminus rfl

/-- The branches that the node of a branch leads to are those of the rest of the block. -/
theorem Branches.runBranches_eq {left fewer terminus place : Nat} :
    ∀ {branches : Branches}, template.Holds place (branches.layout terminus place) →
      template.program.nodes.size ≤ left + place → template.program.nodes.size ≤ fewer + place →
      level.runBranches template (level.chain template left) fewer (branches.opening? place) =
        branches.walk level template place
  | .closed _, _, _, _ => by cases fewer <;> rfl
  | .branch d condition body more, h, hleft, hfewer => by
    obtain ⟨-, hbranch⟩ := h.cons
    obtain ⟨hnode, hinside⟩ := hbranch.cons
    obtain ⟨hbody, hmore⟩ := hinside.append
    rw [Body.length_layout] at hmore
    obtain ⟨closer, hcloser⟩ := Branches.node?_of_holds hmore
    have hnested : level.chain template left (body.start? (place + 2)) =
        body.walk level template (place + 2) :=
      Body.chain_start? <| by
        rw [Body.chain_eq hbody (by omega) fun _ _ => chain_of_terminal hcloser]
        exact bind_pure_unit
    obtain ⟨fewer, rfl, hfewer⟩ := exists_left_of_node? hnode (by omega : _ ≤ fewer + (place + 1))
    rw [Branches.opening?, runBranches_of_node? hnode, hnested,
      Branches.runBranches_eq hmore (by omega) (by omega), Branches.walk]

end

/-! ### The bodies of blocks -/

/-- The chain of a block's body runs the body, which is followed by a terminal node. -/
theorem Body.runPart_bodyAt_of_node? {place : Nat} {body : Body} {node : Node} {d : Directive}
    (hnode : template.program.node? place = some node)
    (hnested : node.kind.nested? = body.start? (place + 1))
    (hbody : template.Holds (place + 1) (body.layout (place + 1)))
    (hcloser : template.program.node? (place + 1 + body.width) =
      some ((d.node .terminal).followedBy (place + 1 + body.width + 1))) :
    level.runPart template (.bodyAt place) = body.walk level template (place + 1) := by
  rw [runPart, Program.start?, hnode, Option.bind_some, hnested]
  refine Body.chain_start? ?_
  rw [Body.chain_eq hbody (Nat.le_add_right _ _) fun _ _ => chain_of_terminal hcloser]
  exact bind_pure_unit

mutual

/-- A node in a body that opens a block or branch leads to the body of it. -/
theorem Body.runPart_bodyAt {place : Nat} : ∀ {body : Body} {n : Nat},
    template.Holds place (body.layout place) → n < body.width →
      level.runPart template (.bodyAt (place + n)) =
        (body.bodyAt? n).elim (pure ()) fun inner => inner.walk level template (place + n + 1)
  | .done, _, _, hn => absurd hn (Nat.not_lt_zero _)
  | .text spans rest, 0, h, _ => runPart_of_nested?_eq_none h.cons.1 rfl
  | .text spans rest, n + 1, h, hn => by
    have hplace : place + (n + 1) = place + 1 + n := by omega
    rw [hplace]
    exact Body.runPart_bodyAt h.cons.2 (by simp only [Body.width] at hn; omega)
  | .action d a rest, 0, h, _ => runPart_of_nested?_eq_none h.cons.1 rfl
  | .action d a rest, n + 1, h, hn => by
    have hplace : place + (n + 1) = place + 1 + n := by omega
    rw [hplace]
    exact Body.runPart_bodyAt h.cons.2 (by simp only [Body.width] at hn; omega)
  | .block d opener body branches rest, 0, h, _ => by
    obtain ⟨hbody, hbranches⟩ := h.cons.2.append.1.append
    rw [Body.length_layout] at hbranches
    obtain ⟨closer, hcloser⟩ := Branches.node?_of_holds hbranches
    exact Body.runPart_bodyAt_of_node? h.cons.1 rfl hbody hcloser
  | .block d opener body branches rest, n + 1, h, hn => by
    obtain ⟨hblock, hrest⟩ := h.cons.2.append
    obtain ⟨hbody, hbranches⟩ := hblock.append
    simp only [List.length_append, Body.length_layout, Branches.length_layout, Body.width]
      at hrest hbranches hn
    rw [Body.bodyAt?]
    split_ifs with hinside hothers
    · have hplace : place + (n + 1) = place + 1 + n := by omega
      rw [hplace]
      exact Body.runPart_bodyAt hbody hinside
    · have hplace : place + (n + 1) = place + 1 + body.width + (n - body.width) := by omega
      rw [hplace]
      exact Branches.runPart_bodyAt hbranches (by omega)
    · have hplace : place + (n + 1) = place + 1 + body.width + branches.width + 1 +
          (n - (body.width + branches.width + 1)) := by omega
      rw [hplace]
      exact Body.runPart_bodyAt (by simpa [Nat.add_assoc] using hrest) (by omega)

/-- So does a node in the rest of a block. -/
theorem Branches.runPart_bodyAt {terminus place : Nat} : ∀ {branches : Branches} {n : Nat},
    template.Holds place (branches.layout terminus place) → n ≤ branches.width →
      level.runPart template (.bodyAt (place + n)) =
        (branches.bodyAt? n).elim (pure ()) fun inner => inner.walk level template (place + n + 1)
  | .closed closer, 0, h, _ => runPart_of_nested?_eq_none h.cons.1 rfl
  | .branch d condition body more, 0, h, _ => runPart_of_nested?_eq_none h.cons.1 rfl
  | .branch d condition body more, 1, h, _ => by
    obtain ⟨hnode, hinside⟩ := h.cons.2.cons
    obtain ⟨hbody, hmore⟩ := hinside.append
    rw [Body.length_layout] at hmore
    obtain ⟨closer, hcloser⟩ := Branches.node?_of_holds hmore
    exact Body.runPart_bodyAt_of_node? hnode rfl hbody hcloser
  | .branch d condition body more, n + 2, h, hn => by
    obtain ⟨hbody, hmore⟩ := h.cons.2.cons.2.append
    simp only [Body.length_layout, Branches.width] at hmore hn
    rw [Branches.bodyAt?]
    split_ifs with hinside
    · have hplace : place + (n + 2) = place + 1 + 1 + n := by omega
      rw [hplace]
      exact Body.runPart_bodyAt hbody hinside
    · have hplace : place + (n + 2) = place + 1 + 1 + body.width + (n - body.width) := by omega
      rw [hplace]
      exact Branches.runPart_bodyAt hmore (by omega)

end

theorem Body.bodyAt?_eq_none : ∀ {body : Body} {n : Nat}, body.width ≤ n → body.bodyAt? n = none
  | .done, _, _ => rfl
  | .text _ _, 0, _ => rfl
  | .text _ rest, n + 1, hn => by
    simp only [Body.width] at hn
    rw [Body.bodyAt?, Body.bodyAt?_eq_none (by omega)]
  | .action _ _ _, 0, _ => rfl
  | .action _ _ rest, n + 1, hn => by
    simp only [Body.width] at hn
    rw [Body.bodyAt?, Body.bodyAt?_eq_none (by omega)]
  | .block _ _ _ _ _, 0, hn => by
    simp only [Body.width] at hn
    omega
  | .block _ _ body branches rest, n + 1, hn => by
    simp only [Body.width] at hn
    rw [Body.bodyAt?, if_neg (by omega), if_neg (by omega), Body.bodyAt?_eq_none (by omega)]

end Links

/-! ### Rendering -/

namespace Level

/-- Following the links is walking the tree, for any way to run templates one level deeper. -/
theorem runPart_eq_walkPart (level : Level) : level.runPart = level.walkPart := by
  funext template part
  have hnodes : template.Holds 0
      (template.tree.layout 0 ++ [finishNode template.source.utf8ByteSize]) :=
    ⟨[], by rw [List.append_nil, List.drop_zero, template.toList_nodes]⟩
  obtain ⟨hbody, hfinish⟩ := hnodes.append
  have hlast : template.program.node? (0 + template.tree.width) =
      some (finishNode template.source.utf8ByteSize) := by
    rw [← Body.length_layout]
    exact hfinish.cons.1
  cases part with
  | whole =>
    have hchain : level.runPart template .whole =
        template.tree.walk level template 0 >>= fun _ => pure () :=
      Body.chain_eq hbody (Nat.le_add_right _ _) fun left _ => chain_of_finish hlast
    rw [hchain]
    exact bind_pure_unit
  | bodyAt place =>
    have hwalk : level.walkPart template (.bodyAt place) =
        (template.tree.bodyAt? place).elim (pure ())
          fun inner => inner.walk level template (place + 1) := by
      rw [walkPart]
      cases template.tree.bodyAt? place <;> rfl
    rw [hwalk]
    by_cases hplace : place < template.tree.width
    · have hpart : level.runPart template (.bodyAt (0 + place)) = _ :=
        Body.runPart_bodyAt hbody hplace
      rwa [Nat.zero_add] at hpart
    · rw [Body.bodyAt?_eq_none (by omega), Option.elim_none]
      cases hnode : template.program.node? place with
      | none =>
        rw [runPart, Program.start?, hnode, Option.bind_none]
        cases template.program.nodes.size <;> rfl
      | some node =>
        have hsize := Template.lt_of_node? hnode
        rw [← Array.length_toList, template.toList_nodes, List.length_append, Body.length_layout,
          List.length_singleton] at hsize
        obtain rfl : place = 0 + template.tree.width := by omega
        exact runPart_of_nested?_eq_none hlast rfl

/-- At every level, following the links is walking the trees. -/
theorem above_eq_structural (setting : Setting) (levels : Nat) :
    above setting levels = structural setting levels := by
  induction levels with
  | zero => rfl
  | succ levels ih =>
    rw [structural, ← ih, ← runPart_eq_walkPart]
    rfl

end Level

/-- Rendering a template along the links of its nodes is walking the tree that its phrases derive,
in which every directive that ends a block or a branch belongs to the directive that opened it.
The two do the same to every state, and so write the same pieces, have the same result or error,
and leave the scopes, the resolver and the declared blocks the same. So do the bodies of blocks. -/
theorem run_eq_walk (template : Template) (setting : Setting) (levels : Nat) :
    template.tree.Derives template.compiler template.source
        (Outline.ofSource template.source).phrases ∧
      (Level.above setting levels).runPart template .whole =
        template.tree.walk (Level.structural setting levels) template 0 ∧
      ∀ place, (Level.above setting levels).runPart template (.bodyAt place) =
        (Level.structural setting levels).walkPart template (.bodyAt place) := by
  rw [Level.above_eq_structural, Level.runPart_eq_walkPart]
  exact ⟨template.derives_tree, rfl, fun _ => rfl⟩

end TextTemplate
