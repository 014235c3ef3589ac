import Mathlib.Logic.Relation
import TextTemplate.Proofs.Structure.Links

/-!
# Links that hold together

The links of a template lead forward and stay within it. Only the last node leads nowhere. The
branches of a block, and no others, share the node of its end; and what stands in a body leads on to
the node that closes the body, past no other terminal node.

## Main definitions

* `Node.links`: the places that a node is linked to.
* `Program.GoesOn`, `Program.SameBlock`: the branches of a block.
* `Program.following?`, `Program.LeadsTo`: what follows a node in its body.
* `Program.Closes`: the node that closes the body of a branch.
* `Program.WellLinked`: nodes whose links hold together.

## Main results

* `Body.leadsTo_of_holds`: a body leads on to the node behind it.
* `Body.Derives.fits`: the nodes of a body, with the bodies of its blocks within it.
* `Template.wellLinked`: the nodes of every template are well linked.
-/

namespace TextTemplate

open Relation

/-! ### Links -/

namespace NodeKind

/-- The branch behind that of a node. -/
def alternative? : NodeKind → Option Nat
  | block _ _ alternative _ => alternative
  | _ => none

/-- The end of the block that a node belongs to as a branch. -/
def terminus? : NodeKind → Option Nat
  | block _ _ _ terminus => terminus
  | _ => none

end NodeKind

/-- The places that a node is linked to. -/
def Node.links (node : Node) : List Nat :=
  node.next.toList ++ node.kind.nested?.toList ++ node.kind.alternative?.toList ++
    node.kind.terminus?.toList

namespace Program

variable (program : Program)

/-- The branch at the first place has the one at the second behind it. -/
def GoesOn (place branch : Nat) : Prop :=
  ∃ node, program.node? place = some node ∧ node.kind.alternative? = some branch

/-- From one of the branches the links to further branches lead to the other. -/
def SameBlock (place other : Nat) : Prop :=
  ReflTransGen program.GoesOn place other ∨ ReflTransGen program.GoesOn other place

/-- What follows a node in the body it stands in: the next node, or, behind a block, the node behind
that of its end. A terminal node and the last node end what they stand in. -/
def following? (place : Nat) : Option Nat :=
  (program.node? place).bind fun node =>
    match node.kind with
    | .text _ | .action _ => node.next
    | .block _ _ _ terminus => (terminus.bind program.node?).bind Node.next
    | .terminal | .finish => none

/-- One thing after the other, the first place leads to the second. -/
def LeadsTo : Nat → Nat → Prop :=
  ReflTransGen fun place next => program.following? place = some next

/-- The terminal node that closes the body of a branch: that of the directive of the next branch,
which stands in front of the node of that branch, or, behind the last one, that of the end of the
block. -/
def Closes (branch : Node) (closer : Nat) : Prop :=
  ∃ last, program.node? closer = some last ∧ last.kind = .terminal ∧
    match branch.kind.alternative? with
    | none => branch.kind.terminus? = some closer
    | some next => next = closer + 1 ∧
      ∃ node, program.node? next = some node ∧ node.span = last.span ∧ node.name = last.name

/-- Nodes whose links hold together. -/
structure WellLinked : Prop where
  /-- Links lead forward, to a node. -/
  forward {place : Nat} {node : Node} : program.node? place = some node →
    ∀ link ∈ node.links, place < link ∧ link < program.nodes.size
  /-- The last node, and no other, ends the template. -/
  finish {place : Nat} {node : Node} : program.node? place = some node →
    (node.kind = .finish ↔ place + 1 = program.nodes.size)
  /-- It is the only one without a node after it. -/
  next {place : Nat} {node : Node} : program.node? place = some node →
    (node.next = none ↔ node.kind = .finish)
  /-- There is a last node. -/
  nonempty : 0 < program.nodes.size
  /-- Every branch is linked to the end of its block, a terminal node. -/
  terminus {place : Nat} {node : Node} {opener : Opener} : program.node? place = some node →
    node.kind.opener? = some opener →
    ∃ terminus last, node.kind.terminus? = some terminus ∧
      program.node? terminus = some last ∧ last.kind = .terminal ∧ last.name = "end"
  /-- The branches of one block, and no others, have the same end. -/
  sameBlock {place other : Nat} {node node' : Node} {opener opener' : Opener} :
    program.node? place = some node → program.node? other = some node' →
    node.kind.opener? = some opener → node'.kind.opener? = some opener' →
    (node.kind.terminus? = node'.kind.terminus? ↔ program.SameBlock place other)
  /-- A branch that does not open its block stands behind exactly one other. -/
  branch {place : Nat} {node : Node} {opener : Opener} : program.node? place = some node →
    node.kind.opener? = some opener →
    (node.name = "else" ∨ node.name = "elseif" ↔ ∃! earlier, program.GoesOn earlier place)
  /-- The first node of a body leads to the node that closes the body. -/
  body {place first : Nat} {node : Node} : program.node? place = some node →
    node.kind.nested? = some first →
    ∃ closer, node.next = some closer ∧ program.Closes node closer ∧ program.LeadsTo first closer

end Program

namespace Template

variable {template : Template}

/-- The node of a text or directive leads to the node after it. -/
theorem following?_of_node? {place next : Nat} {node : Node}
    (h : template.program.node? place = some (node.followedBy next))
    (hkind : (∃ spans, node.kind = .text spans) ∨ ∃ action, node.kind = .action action) :
    template.program.following? place = some next := by
  rw [Program.following?, h, Option.bind_some]
  obtain ⟨spans, hkind⟩ | ⟨action, hkind⟩ := hkind <;> simp [Node.followedBy, hkind]

/-- The node of a block leads to the node after that of its end. -/
theorem following?_of_blockNode {place inside after terminus : Nat} {d : Directive}
    {opener : Opener} {body : Body} {branches : Branches} {closer : Directive}
    (h : template.program.node? place =
      some (blockNode d opener body branches inside after terminus))
    (hterminus : template.program.node? terminus =
      some ((closer.node .terminal).followedBy (terminus + 1))) :
    template.program.following? place = some (terminus + 1) := by
  rw [Program.following?, h, Option.bind_some]
  change (template.program.node? terminus).bind Node.next = _
  rw [hterminus]
  rfl

end Template

/-- A body leads on to the node behind it. -/
theorem Body.leadsTo_of_holds {template : Template} {place : Nat} :
    ∀ {body : Body}, template.Holds place (body.layout place) →
      template.program.LeadsTo place (place + body.width)
  | .done, _ => .refl
  | .text spans rest, h => by
    have hrest := Body.leadsTo_of_holds h.cons.2
    rw [Body.width, ← Nat.add_assoc]
    exact .head (Template.following?_of_node? h.cons.1 (.inl ⟨_, rfl⟩)) hrest
  | .action d a rest, h => by
    have hrest := Body.leadsTo_of_holds h.cons.2
    rw [Body.width, ← Nat.add_assoc]
    exact .head (Template.following?_of_node? h.cons.1 (.inr ⟨_, rfl⟩)) hrest
  | .block d opener body branches rest, h => by
    obtain ⟨hnode, hinside⟩ := h.cons
    obtain ⟨hblock, hrest⟩ := hinside.append
    obtain ⟨hbody, hbranches⟩ := hblock.append
    simp only [List.length_append, Body.length_layout, Branches.length_layout] at hrest hbranches
    have hplace : place + 1 + (body.width + (branches.width + 1)) =
        place + 1 + body.width + branches.width + 1 := by omega
    rw [hplace] at hrest
    have hlast := Body.leadsTo_of_holds hrest
    have hwidth : place + (Body.block d opener body branches rest).width =
        place + 1 + body.width + branches.width + 1 + rest.width := by
      simp only [Body.width]
      omega
    rw [hwidth]
    exact .head (Template.following?_of_blockNode hnode
      (Branches.node?_closer_of_holds hbranches)) hlast

/-! ### The nodes of a body -/

namespace Template

/-- A branch stands at a place, with its body behind it and then the rest of its block, which ends
in front of `stop`. -/
structure BranchAt (template : Template) (place stop : Nat) (d : Directive) (opener : Opener)
    (body : Body) (branches : Branches) : Prop where
  node : template.program.node? place = some (blockNode d opener body branches (place + 1)
    (place + 1 + body.width) (place + 1 + body.width + branches.width))
  holdsBody : template.Holds (place + 1) (body.layout (place + 1))
  holdsBranches : template.Holds (place + 1 + body.width)
    (branches.layout (place + 1 + body.width + branches.width) (place + 1 + body.width))
  within : place + 1 + body.width + branches.width < stop
  derives : ∃ begins phrases, Branches.Derives template.compiler template.source begins phrases
    opener body branches
  origin : d.name = "else" ∨ d.name = "elseif" → ∃ earlier, template.program.GoesOn earlier place

/-- What stands at a place of a body that ends in front of `stop`. -/
inductive Fits (template : Template) (place stop : Nat) : Prop
  | plain {node : Node}
      (standsAlone : template.program.node? place = some (node.followedBy (place + 1)))
      (noBranch : node.kind.opener? = none) (noFinish : node.kind ≠ .finish) (within : place < stop)
  | branch {d : Directive} {opener : Opener} {body : Body} {branches : Branches}
      (branch : template.BranchAt place stop d opener body branches)

variable {template : Template}

theorem BranchAt.mono {place stop stop' : Nat} {d : Directive} {opener : Opener} {body : Body}
    {branches : Branches} (h : template.BranchAt place stop d opener body branches)
    (hstop : stop ≤ stop') : template.BranchAt place stop' d opener body branches :=
  { h with within := Nat.lt_of_lt_of_le h.within hstop }

theorem Fits.mono {place stop stop' : Nat} (h : template.Fits place stop) (hstop : stop ≤ stop') :
    template.Fits place stop' := by
  cases h with
  | plain hnode hbranch hfinish hwithin =>
    exact .plain hnode hbranch hfinish (Nat.lt_of_lt_of_le hwithin hstop)
  | branch h => exact .branch (h.mono hstop)

/-- Behind a branch with another one behind it stands that branch. -/
theorem BranchAt.next {place stop : Nat} {d e : Directive} {opener : Opener} {body inner : Body}
    {condition : Option Slot} {more : Branches}
    (h : template.BranchAt place stop d opener body (.branch e condition inner more)) :
    template.BranchAt (place + 1 + body.width + 1) stop e (.conditional condition) inner more := by
  have hwidth : place + 1 + body.width + (Branches.branch e condition inner more).width =
      place + 1 + body.width + 1 + 1 + inner.width + more.width := by
    simp only [Branches.width]
    omega
  obtain ⟨hnode, -, hbranches, hwithin, ⟨_, _, hderives⟩, -⟩ := h
  rw [hwidth] at hbranches hwithin
  obtain ⟨-, hrest⟩ := hbranches.cons
  obtain ⟨hbranch, hrest⟩ := hrest.cons
  obtain ⟨hinner, hmore⟩ := hrest.append
  rw [Body.length_layout] at hmore
  cases hderives with
  | branch _ _ _ hderives =>
    exact ⟨hbranch, hinner, hmore, hwithin, ⟨_, _, hderives⟩, fun _ => ⟨place, _, hnode, rfl⟩⟩

end Template

section Derivation

variable {compiler : Compiler} {source : String}

private theorem Directive.not_goesOn_of_reads_opens {d : Directive} {opener : Opener}
    (h : d.Reads compiler source (.opens opener)) : ¬(d.name = "else" ∨ d.name = "elseif") := by
  intro hname
  have hrole := Directive.role_eq_ok_iff.2 h
  rw [Directive.role_of_goesOn hname] at hrole
  cases hrole

theorem Branches.Derives.name_closer {phrases : List Phrase} {opener opener' : Opener}
    {body : Body} {branches : Branches} :
    Branches.Derives compiler source opener phrases opener' body branches →
      branches.closer.name = "end" := by
  intro h
  cases h with
  | closed _ hreads _ => exact Directive.names_of_reads hreads
  | branch _ _ _ hmore => exact hmore.name_closer

private theorem Branches.Derives.name_branch {phrases : List Phrase} {opener opener' : Opener}
    {body inner : Body} {e : Directive} {condition : Option Slot} {more : Branches} :
    Branches.Derives compiler source opener phrases opener' body (.branch e condition inner more) →
      e.name = "else" ∨ e.name = "elseif"
  | .branch _ hreads _ _ => Directive.names_of_reads hreads

private theorem Branches.Derives.exists_derives {phrases : List Phrase} {opener opener' : Opener}
    {body : Body} {branches : Branches} :
    Branches.Derives compiler source opener phrases opener' body branches →
      ∃ inside, body.Derives compiler source inside := by
  intro h
  cases h with
  | closed hinside _ _ => exact ⟨_, hinside⟩
  | branch hinside _ _ _ => exact ⟨_, hinside⟩

end Derivation

mutual

/-- Every place of a body fits into it. -/
theorem Body.Derives.fits {template : Template} {place : Nat} {phrases : List Phrase}
    {body : Body} : body.Derives template.compiler template.source phrases →
      template.Holds place (body.layout place) →
      ∀ {p : Nat}, place ≤ p → p < place + body.width → template.Fits p (place + body.width)
  | .done, _, p, hle, hlt => absurd hlt (by simpa [Body.width] using hle)
  | .text hrest, h, p, hle, hlt => by
    simp only [Body.width, ← Nat.add_assoc] at hlt ⊢
    obtain rfl | hle := Nat.eq_or_lt_of_le hle
    · exact .plain h.cons.1 rfl nofun hlt
    · exact hrest.fits h.cons.2 hle hlt
  | .action hreads hrest, h, p, hle, hlt => by
    simp only [Body.width, ← Nat.add_assoc] at hlt ⊢
    obtain rfl | hle := Nat.eq_or_lt_of_le hle
    · exact .plain h.cons.1 rfl nofun hlt
    · exact hrest.fits h.cons.2 hle hlt
  | @Body.Derives.block _ _ d opener opener' _ _ body branches rest hreads hblock hrest,
      h, p, hle, hlt => by
    obtain ⟨hnode, hinside⟩ := h.cons
    obtain ⟨hinside, hlast⟩ := hinside.append
    obtain ⟨hbody, hbranches⟩ := hinside.append
    simp only [List.length_append, Body.length_layout, Branches.length_layout, ← Nat.add_assoc]
      at hlast hbranches
    have hwidth : place + (Body.block d opener' body branches rest).width =
        place + 1 + body.width + branches.width + 1 + rest.width := by
      simp only [Body.width]
      omega
    rw [hwidth] at hlt ⊢
    have hbranch : template.BranchAt place (place + 1 + body.width + branches.width + 1) d opener'
        body branches :=
      ⟨hnode, hbody, hbranches, Nat.lt_succ_self _, ⟨_, _, hblock⟩,
        fun hname => absurd hname (Directive.not_goesOn_of_reads_opens hreads)⟩
    obtain rfl | hle := Nat.eq_or_lt_of_le hle
    · exact .branch (hbranch.mono (Nat.le_add_right _ _))
    · by_cases hp : p < place + 1 + body.width + branches.width + 1
      · exact (hblock.fits hbranch hle hp).mono (Nat.le_add_right _ _)
      · exact hrest.fits hlast (Nat.le_of_not_lt hp) hlt

/-- So does every place behind the node of a branch, up to the end of its block. -/
theorem Branches.Derives.fits {template : Template} {place stop : Nat} {phrases : List Phrase}
    {d : Directive} {opener opener' : Opener} {body : Body} {branches : Branches} :
    Branches.Derives template.compiler template.source opener phrases opener' body branches →
      template.BranchAt place stop d opener' body branches →
      ∀ {p : Nat}, place < p → p < place + 1 + body.width + branches.width + 1 →
        template.Fits p stop
  | .closed hinside _ _, h, p, hle, hlt => by
    have hstop := h.within
    simp only [Branches.width] at hlt hstop
    by_cases hp : p < place + 1 + body.width
    · exact (hinside.fits h.holdsBody hle hp).mono (Nat.le_of_lt hstop)
    · obtain rfl : p = place + 1 + body.width := by omega
      exact .plain h.holdsBranches.cons.1 rfl nofun hstop
  | .branch hinside _ _ hmore, h, p, hle, hlt => by
    have hstop := h.within
    simp only [Branches.width] at hlt hstop
    by_cases hp : p < place + 1 + body.width
    · exact (hinside.fits h.holdsBody hle hp).mono (by omega)
    · obtain rfl | hle := Nat.eq_or_lt_of_le (Nat.le_of_not_lt hp)
      · exact .plain h.holdsBranches.cons.1 rfl nofun (by omega)
      · obtain rfl | hle := Nat.eq_or_lt_of_le hle
        · exact .branch h.next
        · exact hmore.fits h.next hle (by omega)

end

/-! ### Branches -/

namespace Template

variable {template : Template}

namespace BranchAt

variable {place stop : Nat} {d : Directive} {opener : Opener} {body : Body} {branches : Branches}

/-- What stands in the body of a branch ends in front of the node that closes the body. -/
theorem fits (h : template.BranchAt place stop d opener body branches) {p : Nat}
    (hle : place < p) (hlt : p < place + 1 + body.width) :
    template.Fits p (place + 1 + body.width) := by
  obtain ⟨_, _, hderives⟩ := h.derives
  obtain ⟨_, hbody⟩ := hderives.exists_derives
  exact hbody.fits h.holdsBody hle hlt

/-- The node behind the body of a branch closes the body. -/
theorem closes (h : template.BranchAt place stop d opener body branches) :
    template.program.Closes (blockNode d opener body branches (place + 1)
      (place + 1 + body.width) (place + 1 + body.width + branches.width))
        (place + 1 + body.width) := by
  cases branches with
  | closed closer => exact ⟨_, h.holdsBranches.cons.1, rfl, rfl⟩
  | branch e condition inner more =>
    exact ⟨_, h.holdsBranches.cons.1, rfl, rfl, _, h.next.node, rfl, rfl⟩

/-- The links of a branch lead behind it, and no further than to the end of its block. -/
theorem lt_of_mem_links {link : Nat}
    (h : link ∈ (blockNode d opener body branches (place + 1) (place + 1 + body.width)
      (place + 1 + body.width + branches.width)).links) :
    place < link ∧ link ≤ place + 1 + body.width + branches.width := by
  simp only [Node.links, List.mem_append, Option.mem_toList] at h
  obtain ((hnext | hnested) | halternative) | hterminus := h
  · obtain rfl : place + 1 + body.width = link := Option.some.inj hnext
    omega
  · cases body with
    | done => cases hnested
    | text | action | block =>
      obtain rfl : place + 1 = link := Option.some.inj hnested
      omega
  · cases branches with
    | closed => cases halternative
    | branch =>
      obtain rfl : place + 1 + body.width + 1 = link := Option.some.inj halternative
      simp only [Branches.width]
      omega
  · obtain rfl : place + 1 + body.width + branches.width = link := Option.some.inj hterminus
    omega

private theorem goesOn {e : Directive} {condition : Option Slot} {inner : Body} {more : Branches}
    (h : template.BranchAt place stop d opener body (.branch e condition inner more)) :
    template.program.GoesOn place (place + 1 + body.width + 1) :=
  ⟨_, h.node, rfl⟩

/-- The last branch of a block, whose body ends at the end of the block. -/
theorem exists_last : ∀ {branches : Branches} {place : Nat} {d : Directive} {opener : Opener}
    {body : Body}, template.BranchAt place stop d opener body branches →
    ∃ last e opener' inner closer, ReflTransGen template.program.GoesOn place last ∧
      template.BranchAt last stop e opener' inner (.closed closer) ∧
      last + 1 + inner.width = place + 1 + body.width + branches.width
  | .closed closer, place, d, opener, body, h => ⟨place, d, opener, body, closer, .refl, h, rfl⟩
  | .branch e condition inner more, place, d, opener, body, h => by
    obtain ⟨last, e', opener', inner', closer, hlast, hbranch, hend⟩ := exists_last h.next
    refine ⟨last, e', opener', inner', closer, .head h.goesOn hlast, hbranch, ?_⟩
    simp only [hend, Branches.width]
    omega

end BranchAt

/-- What fits in front of a place has its links there. -/
theorem Fits.lt_of_mem_links {place stop link : Nat} {node : Node} (h : template.Fits place stop)
    (hnode : template.program.node? place = some node) (hbranch : node.kind.opener?.isSome)
    (hlink : link ∈ node.links) : link < stop := by
  cases h with
  | plain hplain hkind =>
    cases hplain.symm.trans hnode
    rw [Node.followedBy, hkind] at hbranch
    cases hbranch
  | branch h =>
    cases h.node.symm.trans hnode
    exact Nat.lt_of_le_of_lt (BranchAt.lt_of_mem_links hlink).2 h.within

/-- Every place has a node of a body or is that of the last node. -/
theorem fits_or_eq_finish {place : Nat} {node : Node}
    (h : template.program.node? place = some node) :
    template.Fits place template.tree.width ∨
      place = template.tree.width ∧ node = finishNode template.source.utf8ByteSize := by
  have hholds : template.Holds 0
      (template.tree.layout 0 ++ [finishNode template.source.utf8ByteSize]) :=
    ⟨[], by rw [List.append_nil, List.drop_zero, template.toList_nodes]⟩
  obtain ⟨hbody, hfinish⟩ := hholds.append
  rw [Body.length_layout, Nat.zero_add] at hfinish
  by_cases hplace : place < template.tree.width
  · have hfits := template.derives_tree.fits hbody (Nat.zero_le place) (by omega)
    rw [Nat.zero_add] at hfits
    exact .inl hfits
  · have hsize := lt_of_node? h
    rw [← Array.length_toList, template.toList_nodes, List.length_append, Body.length_layout,
      List.length_singleton] at hsize
    obtain rfl : place = template.tree.width := by omega
    cases hfinish.cons.1.symm.trans h
    exact .inr ⟨rfl, rfl⟩

private theorem size_nodes (template : Template) :
    template.program.nodes.size = template.tree.width + 1 := by
  rw [← Array.length_toList, template.toList_nodes, List.length_append, Body.length_layout,
    List.length_singleton]

/-- The node of a branch stands where a branch does. -/
theorem exists_branchAt {place : Nat} {node : Node} {opener : Opener}
    (h : template.program.node? place = some node) (hopener : node.kind.opener? = some opener) :
    ∃ d body branches, template.BranchAt place template.tree.width d opener body branches ∧
      node = blockNode d opener body branches (place + 1) (place + 1 + body.width)
        (place + 1 + body.width + branches.width) := by
  obtain hfits | ⟨-, rfl⟩ := fits_or_eq_finish h
  · cases hfits with
    | plain hplain hkind =>
      cases hplain.symm.trans h
      cases hkind.symm.trans hopener
    | branch hbranch =>
      cases hbranch.node.symm.trans h
      cases hopener
      exact ⟨_, _, _, hbranch, rfl⟩
  · cases hopener

/-- The branch behind another one stands behind the node that closes the body of that one. -/
theorem exists_branchAt_of_goesOn {place branch : Nat} (h : template.program.GoesOn place branch) :
    ∃ d opener body e condition inner more,
      template.BranchAt place template.tree.width d opener body (.branch e condition inner more) ∧
      branch = place + 1 + body.width + 1 := by
  obtain ⟨node, hnode, halternative⟩ := h
  have hopener : ∃ opener, node.kind.opener? = some opener := by
    cases hkind : node.kind with
    | block opener => exact ⟨opener, rfl⟩
    | text | action | terminal | finish =>
      rw [hkind] at halternative
      cases halternative
  obtain ⟨opener, hopener⟩ := hopener
  obtain ⟨d, body, branches, hbranch, rfl⟩ := exists_branchAt hnode hopener
  cases branches with
  | closed closer => cases halternative
  | branch e condition inner more =>
    exact ⟨d, opener, body, e, condition, inner, more, hbranch, (Option.some.inj halternative).symm⟩

/-- No two branches have the same branch behind them. -/
theorem eq_of_goesOn {place other branch : Nat} (h : template.program.GoesOn place branch)
    (h' : template.program.GoesOn other branch) : place = other := by
  -- Of two branches with one behind both, the later would stand in the body of the earlier.
  have hle {p q : Nat} (hp : template.program.GoesOn p branch)
      (hq : template.program.GoesOn q branch) : q ≤ p := by
    by_contra hlt
    obtain ⟨d, opener, body, e, condition, inner, more, hbranch, rfl⟩ :=
      exists_branchAt_of_goesOn hp
    obtain ⟨d', opener', body', e', condition', inner', more', hbranch', hplace⟩ :=
      exists_branchAt_of_goesOn hq
    obtain ⟨last, hlast, hkind, -⟩ := hbranch.closes
    have hne : q ≠ p + 1 + body.width := by
      rintro rfl
      cases hlast.symm.trans hbranch'.node
      cases hkind
    have hfits := hbranch.fits (p := q) (by omega) (by omega)
    have hlink : p + 1 + body.width + 1 ∈ (blockNode d' opener' body'
        (.branch e' condition' inner' more') (q + 1) (q + 1 + body'.width)
        (q + 1 + body'.width + (Branches.branch e' condition' inner' more').width)).links := by
      rw [hplace]
      simp [Node.links, blockNode, Node.followedBy, Directive.node, NodeKind.alternative?,
        Branches.opening?]
    have := hfits.lt_of_mem_links hbranch'.node rfl hlink
    omega
  exact Nat.le_antisymm (hle h' h) (hle h h')

/-- No two last branches end at the same place. -/
theorem eq_of_closed {place other stop stop' : Nat} {d d' e e' : Directive}
    {opener opener' : Opener} {body body' : Body}
    (h : template.BranchAt place stop d opener body (.closed e))
    (h' : template.BranchAt other stop' d' opener' body' (.closed e'))
    (heq : place + 1 + body.width = other + 1 + body'.width) : place = other := by
  have hle {p q s s' : Nat} {d d' e e' : Directive} {opener opener' : Opener} {body body' : Body}
      (h : template.BranchAt p s d opener body (.closed e))
      (h' : template.BranchAt q s' d' opener' body' (.closed e'))
      (heq : p + 1 + body.width = q + 1 + body'.width) : q ≤ p := by
    by_contra hlt
    have hfits := h.fits (p := q) (by omega) (by omega)
    have hlink : q + 1 + body'.width ∈ (blockNode d' opener' body' (.closed e') (q + 1)
        (q + 1 + body'.width) (q + 1 + body'.width + (Branches.closed e').width)).links := by
      simp [Node.links, blockNode, Node.followedBy, Directive.node]
    have := hfits.lt_of_mem_links h'.node rfl hlink
    omega
  exact Nat.le_antisymm (hle h' h heq.symm) (hle h h' heq)

/-- Branches that go on with each other have the same end. -/
theorem terminus?_eq_of_reflTransGen {place other : Nat} {node node' : Node}
    (h : ReflTransGen template.program.GoesOn place other)
    (hnode : template.program.node? place = some node)
    (hnode' : template.program.node? other = some node') :
    node.kind.terminus? = node'.kind.terminus? := by
  induction h generalizing node' with
  | refl =>
    cases hnode.symm.trans hnode'
    rfl
  | tail _ hgoes ih =>
    obtain ⟨d, opener, body, e, condition, inner, more, hbranch, rfl⟩ :=
      exists_branchAt_of_goesOn hgoes
    rw [ih hbranch.node]
    cases hbranch.next.node.symm.trans hnode'
    refine congrArg some ?_
    simp only [Branches.width]
    omega

/-- The branches of one block, and no others, have the same end. -/
theorem terminus?_eq_iff_sameBlock {place other : Nat} {node node' : Node}
    {opener opener' : Opener} (hnode : template.program.node? place = some node)
    (hnode' : template.program.node? other = some node')
    (hopener : node.kind.opener? = some opener) (hopener' : node'.kind.opener? = some opener') :
    node.kind.terminus? = node'.kind.terminus? ↔ template.program.SameBlock place other := by
  constructor
  · intro h
    obtain ⟨d, body, branches, hbranch, rfl⟩ := exists_branchAt hnode hopener
    obtain ⟨d', body', branches', hbranch', rfl⟩ := exists_branchAt hnode' hopener'
    obtain ⟨last, e, _, inner, closer, hlast, hclosed, hend⟩ := hbranch.exists_last
    obtain ⟨last', e', _, inner', closer', hlast', hclosed', hend'⟩ := hbranch'.exists_last
    obtain rfl : last = last' :=
      eq_of_closed hclosed hclosed' (hend.trans ((Option.some.inj h).trans hend'.symm))
    -- Both lead to the last branch, and backwards there is only one way.
    have hunique : Relator.RightUnique (Function.swap template.program.GoesOn) :=
      fun _ _ _ h h' => eq_of_goesOn h h'
    rw [← reflTransGen_swap] at hlast hlast'
    exact (ReflTransGen.total_of_right_unique hunique hlast hlast').symm.imp
      reflTransGen_swap.1 reflTransGen_swap.1
  · rintro (h | h)
    · exact terminus?_eq_of_reflTransGen h hnode hnode'
    · exact (terminus?_eq_of_reflTransGen h hnode' hnode).symm

/-- A node that is no branch and not the last one is linked to the node after it only. -/
theorem links_followedBy {node : Node} (h : node.kind.opener? = none) (next : Nat) :
    (node.followedBy next).links = [next] := by
  obtain ⟨_, _, _, _, kind⟩ := node
  cases kind with
  | block => cases h
  | text | action | terminal | finish => rfl

/-- Links lead forward, to a node. -/
theorem lt_of_mem_links {place link : Nat} {node : Node}
    (hnode : template.program.node? place = some node) (hlink : link ∈ node.links) :
    place < link ∧ link < template.program.nodes.size := by
  rw [size_nodes]
  obtain hfits | ⟨-, rfl⟩ := fits_or_eq_finish hnode
  · cases hfits with
    | plain hplain hbranch _ hwithin =>
      cases hplain.symm.trans hnode
      rw [links_followedBy hbranch, List.mem_singleton] at hlink
      omega
    | branch hbranch =>
      cases hbranch.node.symm.trans hnode
      have := BranchAt.lt_of_mem_links hlink
      have := hbranch.within
      omega
  · cases hlink

/-- What follows a node stands behind it. -/
theorem lt_of_following? {place next : Nat} (h : template.program.following? place = some next) :
    place < next := by
  obtain ⟨node, hnode, hnext⟩ := Option.bind_eq_some_iff.1 h
  have hforward {link : Nat} (hlink : link ∈ node.links) := (lt_of_mem_links hnode hlink).1
  cases hkind : node.kind with
  | text spans | action a =>
    simp only [hkind] at hnext
    exact hforward (by simp [Node.links, hnext])
  | block opener nested alternative terminus =>
    simp only [hkind] at hnext
    obtain ⟨last, hlast, hafter⟩ := Option.bind_eq_some_iff.1 hnext
    obtain ⟨stop, rfl, hstop⟩ := Option.bind_eq_some_iff.1 hlast
    have hlt : place < stop := hforward (by simp [Node.links, hkind, NodeKind.terminus?])
    exact Nat.lt_trans hlt (lt_of_mem_links hstop (by simp [Node.links, hafter])).1
  | terminal | finish =>
    simp only [hkind] at hnext
    cases hnext

/-- The nodes of a template are well linked: links lead forward to a node, only the last node leads
nowhere, the branches of a block, and no others, share the end of the block, and what stands in the
body of a branch leads to the node that closes the body, past no other terminal node. -/
theorem wellLinked (template : Template) : template.program.WellLinked where
  forward hnode _ hlink := lt_of_mem_links hnode hlink
  finish {place node} hnode := by
    rw [size_nodes, Nat.succ_inj]
    obtain hfits | ⟨rfl, rfl⟩ := fits_or_eq_finish hnode
    · cases hfits with
      | plain hplain _ hfinish hwithin =>
        cases hplain.symm.trans hnode
        exact iff_of_false hfinish (Nat.ne_of_lt hwithin)
      | branch hbranch =>
        cases hbranch.node.symm.trans hnode
        have := hbranch.within
        exact iff_of_false nofun (by omega)
    · exact iff_of_true rfl rfl
  next {place node} hnode := by
    obtain hfits | ⟨-, rfl⟩ := fits_or_eq_finish hnode
    · cases hfits with
      | plain hplain _ hfinish =>
        cases hplain.symm.trans hnode
        exact iff_of_false nofun hfinish
      | branch hbranch =>
        cases hbranch.node.symm.trans hnode
        exact iff_of_false nofun nofun
    · exact iff_of_true rfl rfl
  nonempty := by
    rw [size_nodes]
    exact Nat.succ_pos _
  terminus hnode hopener := by
    obtain ⟨d, body, branches, hbranch, rfl⟩ := exists_branchAt hnode hopener
    obtain ⟨_, _, hderives⟩ := hbranch.derives
    exact ⟨_, _, rfl, Branches.node?_closer_of_holds hbranch.holdsBranches, rfl,
      hderives.name_closer⟩
  sameBlock := terminus?_eq_iff_sameBlock
  branch {place node opener} hnode hopener := by
    constructor
    · intro hname
      obtain ⟨d, body, branches, hbranch, rfl⟩ := exists_branchAt hnode hopener
      obtain ⟨earlier, hearlier⟩ := hbranch.origin hname
      exact ⟨earlier, hearlier, fun other hother => eq_of_goesOn hother hearlier⟩
    · rintro ⟨earlier, hearlier, -⟩
      obtain ⟨d, _, body, e, condition, inner, more, hbranch, rfl⟩ :=
        exists_branchAt_of_goesOn hearlier
      cases hbranch.next.node.symm.trans hnode
      obtain ⟨_, _, hderives⟩ := hbranch.derives
      exact hderives.name_branch
  body {place first node} hnode hnested := by
    obtain ⟨opener, hopener⟩ : ∃ opener, node.kind.opener? = some opener := by
      cases hkind : node.kind with
      | block opener => exact ⟨opener, rfl⟩
      | text | action | terminal | finish =>
        rw [hkind] at hnested
        cases hnested
    obtain ⟨d, body, branches, hbranch, rfl⟩ := exists_branchAt hnode hopener
    have hfirst : first = place + 1 := by
      cases body with
      | done => cases hnested
      | text | action | block => exact (Option.some.inj hnested).symm
    rw [hfirst]
    exact ⟨_, rfl, hbranch.closes, Body.leadsTo_of_holds hbranch.holdsBody⟩

end Template

end TextTemplate
