import Mathlib.Tactic.SplitIfs
import TextTemplate.Proofs.Grammar.Tree

/-!
# Nodes under construction

While a template is put together its last node waits for the next one. Seen as if that one stood
there already, the nodes of an arena only grow at the end when a node is appended, and change at
one place when a link is set.

## Main definitions

* `Arena.linked`: the nodes of an arena, the last of them linked to the next one to come.

## Main results

* `Arena.linked_append`, `Arena.linked_demarcate`, `Arena.linked_modifyKind`: what the operations
  do.
* `Arena.linked_closeBody`, `Arena.linked_openBranch`: how the body of a block is closed.
* `Arena.opener?_append`, `Arena.opener?_openBranch`: none of this changes what the blocks before
  do with their bodies.
-/

namespace TextTemplate

/-! ### Changing one item of a list -/

theorem modify_append_cons {α : Type} (f : α → α) (xs : List α) (y : α) (ys : List α) :
    (xs ++ y :: ys).modify xs.length f = xs ++ f y :: ys := by
  induction xs with
  | nil => rfl
  | cons x xs ih => simpa using ih

private theorem modify_append_left {α : Type} (f : α → α) {i : Nat} {xs : List α}
    (h : i < xs.length) (ys : List α) : (xs ++ ys).modify i f = xs.modify i f ++ ys := by
  induction xs generalizing i with
  | nil => cases h
  | cons x xs ih =>
    cases i with
    | zero => rfl
    | succ i => simpa using ih (Nat.lt_of_succ_lt_succ h)

/-! ### What a node does -/

namespace NodeKind

variable (kind : NodeKind)

@[simp] theorem opener?_withNested (nested : Option Nat) :
    (kind.withNested nested).opener? = kind.opener? := by
  cases kind <;> rfl

@[simp] theorem opener?_withAlternative (alternative : Option Nat) :
    (kind.withAlternative alternative).opener? = kind.opener? := by
  cases kind <;> rfl

variable {kind}

private theorem withOpener_eq_self {opener : Opener} (h : kind.opener? = some opener) :
    kind.withOpener opener = kind := by
  cases kind with
  | block =>
    cases h
    rfl
  | text | action | terminal | finish => cases h

end NodeKind

namespace Arena

variable {arena : Arena} {place : Nat}

/-- The nodes, the last of them linked to the next one to come. -/
def linked (arena : Arena) : List Node :=
  arena.nodes.toList.modify (arena.size - 1) fun last => { last with next := some arena.size }

theorem eq_of_toList {arena' : Arena} (h : arena.nodes.toList = arena'.nodes.toList) :
    arena = arena' :=
  congrArg Arena.mk (Array.toList_inj.1 h)

@[simp] theorem length_linked (arena : Arena) : arena.linked.length = arena.size := by
  simp [linked, size]

private theorem getElem?_linked (arena : Arena) (place : Nat) :
    arena.linked[place]? = arena.nodes[place]?.map fun node =>
      if place + 1 = arena.size then { node with next := some arena.size } else node := by
  rw [linked, List.getElem?_modify, Array.getElem?_toList]
  by_cases h : place + 1 = arena.size
  · have : arena.size - 1 = place := by omega
    simp [h, this]
  · by_cases h' : arena.size - 1 = place
    · have : arena.nodes[place]? = none := by
        rw [Array.getElem?_eq_none_iff]
        change arena.size ≤ place
        omega
      simp [this]
    · simp [h, h']

theorem toList_append (arena : Arena) (node : Node) :
    (arena.append node).nodes.toList = arena.linked ++ [node] := by
  simp [append, linked, size]

@[simp] theorem size_append (arena : Arena) (node : Node) :
    (arena.append node).size = arena.size + 1 := by
  simp [append, size]

/-- An appended node waits for the next one. -/
@[simp] theorem linked_append (arena : Arena) (node : Node) :
    (arena.append node).linked = arena.linked ++ [node.followedBy (arena.size + 1)] := by
  rw [linked, toList_append, size_append, Nat.add_sub_cancel, ← length_linked]
  exact modify_append_cons ..

@[simp] theorem size_modifyKind (arena : Arena) (place : Nat) (f : NodeKind → NodeKind) :
    (arena.modifyKind place f).size = arena.size := by
  simp [modifyKind, size]

theorem linked_modifyKind (arena : Arena) (place : Nat) (f : NodeKind → NodeKind) :
    (arena.modifyKind place f).linked =
      arena.linked.modify place fun node => { node with kind := f node.kind } := by
  rw [linked, linked, size_modifyKind, modifyKind, Array.toList_modify]
  by_cases h : place = arena.size - 1
  · subst h
    rw [List.modify_modify_eq, List.modify_modify_eq]
    rfl
  · rw [List.modify_modify_ne _ _ _ h]

@[simp] theorem size_demarcate (arena : Arena) (place closer : Nat) :
    (arena.demarcate place closer).size = arena.size := by
  simp [demarcate, size]

theorem linked_demarcate {closer : Nat} (h : place + 1 < arena.size) :
    (arena.demarcate place closer).linked = arena.linked.modify place fun node =>
      { node with
        next := some closer
        kind := node.kind.withNested (node.next.filter (· ≠ closer)) } := by
  rw [linked, linked, size_demarcate, demarcate, Array.toList_modify,
    List.modify_modify_ne _ _ _ (by omega)]

/-! ### The nodes of a block -/

/-- The nodes of branches at these places, linked to the end of their block. -/
def endAt (terminus : Nat) (places : List Nat) (nodes : List Node) : List Node :=
  places.foldl (fun nodes place => nodes.modify place fun node =>
    { node with kind := node.kind.withTerminus (some terminus) }) nodes

theorem linked_foldl_setTerminus (terminus : Nat) (places : List Nat) (arena : Arena) :
    (places.foldl (·.setTerminus terminus ·) arena).linked =
      endAt terminus places arena.linked := by
  induction places generalizing arena with
  | nil => rfl
  | cons place places ih =>
    rw [List.foldl_cons, ih, setTerminus, linked_modifyKind]
    rfl

private theorem endAt_append {terminus : Nat} {places : List Nat} {xs : List Node}
    (h : ∀ place ∈ places, place < xs.length) (ys : List Node) :
    endAt terminus places (xs ++ ys) = endAt terminus places xs ++ ys := by
  induction places generalizing xs with
  | nil => rfl
  | cons place places ih =>
    obtain ⟨hplace, hplaces⟩ := List.forall_mem_cons.1 h
    rw [endAt, endAt, List.foldl_cons, List.foldl_cons, modify_append_left _ hplace]
    exact ih (by simpa using hplaces)

/-- The node of the latest branch and those of the branches before it. -/
theorem endAt_cons {terminus : Nat} {places : List Nat} {xs : List Node}
    (h : ∀ place ∈ places, place < xs.length) (node : Node) (ys : List Node) :
    endAt terminus (xs.length :: places) (xs ++ node :: ys) =
      endAt terminus places xs ++
        { node with kind := node.kind.withTerminus (some terminus) } :: ys := by
  rw [endAt, List.foldl_cons, modify_append_cons]
  exact endAt_append h _

variable {xs : List Node} {body : Body} {d : Directive} {opener : Opener}

/-- What came after the node that opens a body is the body. -/
theorem linked_closeBody (h : arena.linked = xs ++ (d.opening opener).followedBy (xs.length + 1) ::
      body.layout (xs.length + 1)) (closer : Directive) :
    (arena.closeBody xs.length closer).linked = xs ++
      (d.node (.block opener (body.start? (xs.length + 1)) none none)).followedBy
        (xs.length + 1 + body.width) ::
      (body.layout (xs.length + 1) ++
        [(closer.node .terminal).followedBy (xs.length + 1 + body.width + 1)]) := by
  have hsize : arena.size = xs.length + 1 + body.width := by
    rw [← length_linked, h, List.length_append, List.length_cons, Body.length_layout]
    omega
  rw [closeBody, linked_demarcate (by rw [size_append]; omega), linked_append, h,
    List.append_assoc, List.cons_append, modify_append_cons, hsize, Body.start?_eq]
  congr 2
  by_cases hwidth : body.width = 0
  · simp [hwidth, Node.followedBy, Directive.opening, Directive.node, NodeKind.withNested]
  · simp [hwidth, Node.followedBy, Directive.opening, Directive.node, NodeKind.withNested]

/-- And another branch opens behind it. -/
theorem linked_openBranch (h : arena.linked = xs ++
      (d.opening opener).followedBy (xs.length + 1) :: body.layout (xs.length + 1))
    (e : Directive) (condition : Option Slot) :
    (arena.openBranch xs.length e condition).linked = xs ++
      (d.node (.block opener (body.start? (xs.length + 1))
        (some (xs.length + 1 + body.width + 1)) none)).followedBy (xs.length + 1 + body.width) ::
      (body.layout (xs.length + 1) ++
        [(e.node .terminal).followedBy (xs.length + 1 + body.width + 1)]) ++
      [(e.opening (.conditional condition)).followedBy (xs.length + 1 + body.width + 2)] := by
  have hsize : (arena.closeBody xs.length e).size = xs.length + 1 + body.width + 1 := by
    rw [← length_linked, linked_closeBody h]
    simp
    omega
  rw [openBranch, setAlternative, linked_modifyKind, linked_append, linked_closeBody h,
    List.append_assoc, List.cons_append, modify_append_cons, hsize]
  simp [Node.followedBy, Directive.node, NodeKind.withAlternative]

/-! ### What blocks do with their bodies -/

private theorem opener?_eq (arena : Arena) (place : Nat) :
    arena.opener? place = arena.linked[place]?.bind fun node => node.kind.opener? := by
  rw [opener?, getElem?_linked]
  cases arena.nodes[place]? with
  | none => rfl
  | some node =>
    simp only [Option.bind_some, Option.map_some]
    split <;> rfl

theorem opener?_of_linked {arena' : Arena} {opener : Opener}
    (h : arena.linked <+: arena'.linked) (hopener : arena.opener? place = some opener) :
    arena'.opener? place = some opener := by
  rw [opener?_eq] at hopener ⊢
  obtain ⟨node, hnode, hopener⟩ := Option.bind_eq_some_iff.1 hopener
  obtain ⟨more, hmore⟩ := h
  have hlt : place < arena.linked.length := (List.getElem?_eq_some_iff.1 hnode).1
  rw [← hmore, List.getElem?_append_left hlt, hnode]
  exact hopener

private theorem opener?_modify {f : Node → Node}
    (h : ∀ node, (f node).kind.opener? = node.kind.opener?) (arena : Arena) (place other : Nat) :
    opener? ⟨arena.nodes.modify place f⟩ other = arena.opener? other := by
  rw [opener?, opener?, Array.getElem?_modify]
  cases arena.nodes[other]? with
  | none => simp
  | some node => by_cases hplace : place = other <;> simp [hplace, h]

@[simp] theorem opener?_demarcate (arena : Arena) (place closer other : Nat) :
    (arena.demarcate place closer).opener? other = arena.opener? other :=
  opener?_modify (fun node => node.kind.opener?_withNested _) ..

@[simp] theorem opener?_setAlternative (arena : Arena) (place branch other : Nat) :
    (arena.setAlternative place branch).opener? other = arena.opener? other :=
  opener?_modify (fun node => node.kind.opener?_withAlternative _) ..

/-- The nodes that end a body and go on with another one change no opener. -/
theorem opener?_append {opener : Opener} (node : Node) (h : arena.opener? place = some opener) :
    (arena.append node).opener? place = some opener :=
  opener?_of_linked (by simp) h

theorem opener?_closeBody {opener : Opener} (other : Nat) (d : Directive)
    (h : arena.opener? place = some opener) :
    (arena.closeBody other d).opener? place = some opener := by
  rw [closeBody, opener?_demarcate]
  exact opener?_append _ h

theorem opener?_openBranch {opener : Opener} (other : Nat) (d : Directive)
    (condition : Option Slot) (h : arena.opener? place = some opener) :
    (arena.openBranch other d condition).opener? place = some opener := by
  rw [openBranch, opener?_setAlternative]
  exact opener?_append _ (opener?_closeBody _ _ h)

/-- The opener of an appended node that opens a body. -/
@[simp] theorem opener?_append_opening (arena : Arena) (d : Directive) (opener : Opener) :
    (arena.append (d.opening opener)).opener? arena.size = some opener := by
  rw [opener?_eq, linked_append, List.getElem?_append_right (by simp), length_linked, Nat.sub_self]
  rfl

@[simp] theorem opener?_openBranch_opening (arena : Arena) (place : Nat) (d : Directive)
    (condition : Option Slot) :
    (arena.openBranch place d condition).opener? (arena.size + 1) =
      some (.conditional condition) := by
  have hsize : (arena.closeBody place d).size = arena.size + 1 := by simp [closeBody]
  rw [openBranch, opener?_setAlternative, ← hsize, opener?_append_opening]

theorem modifyKind_withOpener_eq_self {opener : Opener} (h : arena.opener? place = some opener) :
    arena.modifyKind place (.withOpener opener) = arena := by
  obtain ⟨node, hnode, hopener⟩ := Option.bind_eq_some_iff.1 h
  rw [modifyKind]
  congr 1
  apply Array.ext_getElem?
  intro i
  rw [Array.getElem?_modify]
  split_ifs with hi
  · subst hi
    rw [hnode, Option.map_some, NodeKind.withOpener_eq_self hopener]
  · rfl

end Arena

end TextTemplate
