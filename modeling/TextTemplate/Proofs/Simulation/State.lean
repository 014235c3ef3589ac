import TextTemplate.Proofs.Simulation.Basic

/-!
# The state of renders that agree

The operations on the state of a render do not look at the store, but for the declared blocks, and
do not look at the directories, but for the one in which the render stands. On states that
correspond they give the same and leave states that correspond.

## Main results

* `Simulates.between`: a step between two changes of the state.
* `Simulates.withDir`, `Simulates.withDir_left`: a step in another directory.
* `Simulates.emit`: writing a text.
* `Comparison.States.block?`, `Comparison.States.declare`: declared blocks.
-/

namespace TextTemplate

/-- In a render a comparison is given up where one of the sides escapes or is excused. -/
def Comparison.rendering (c : Comparison) : Failures TemplateError :=
  ⟨c.escapes, c.excuses, c.alike⟩

variable {c : Comparison} {w w' : World} {v v' : View}

/-! ### Later worlds -/

theorem Comparison.Hosts.mono {a b : Template} (h : c.Hosts w a b) (hw : w ≤ w') :
    c.Hosts w' a b where
  compilers := h.compilers
  left := h.left.mono hw.1
  right := h.right.mono hw.2

theorem Comparison.Templates.mono {a b : Template} (h : c.Templates w a b) (hw : w ≤ w') :
    c.Templates w' a b :=
  ⟨h.toHosts.mono hw, h.source, h.known⟩

theorem Comparison.Entries.mono {left right : Entry} (h : c.Entries w left right) (hw : w ≤ w') :
    c.Entries w' left right :=
  ⟨h.hosts.mono hw, h.dirs, h.entries⟩

theorem Comparison.Blocks.mono {left right : DeclaredBlock} (h : c.Blocks w left right)
    (hw : w ≤ w') : c.Blocks w' left right :=
  ⟨h.entries.mono hw, h.name, h.scopes⟩

theorem Comparison.Stores.mono {left right : Store} {owners owners' : List Compiler}
    (h : c.Stores w left right) (hw : w ≤ ⟨owners, owners'⟩) {caches caches' : Array IncludeCache}
    (hleft : Store.Faithful c.trees owners { left with caches })
    (hright : Store.Faithful c.trees owners' { right with caches := caches' }) :
    c.Stores ⟨owners, owners'⟩ { left with caches } { right with caches := caches' } :=
  ⟨h.blocks.imp fun _ _ hblock => hblock.mono hw, hleft, hright⟩

/-! ### The operations on states -/

private theorem rel_getElem? {α β : Type} {R : α → β → Prop} {as : List α} {bs : List β} :
    List.Forall₂ R as bs → ∀ n : Nat, Option.Rel R as[n]? bs[n]?
  | .nil, _ => .none
  | .cons h _, 0 => .some h
  | .cons _ hrest, n + 1 => rel_getElem? hrest n

namespace Comparison.States

variable {s t : RenderState}

theorem lookup {left right : Setting} (h : c.States v s t) (hcontext : left.context = right.context)
    (name : String) : s.lookup left name = t.lookup right name := by
  rw [RenderState.lookup, RenderState.lookup, h.scopes, h.declared, h.resolver, hcontext]

theorem assign (h : c.States v s t) (name : String) (value : Value) :
    c.States v (s.assign name value) (t.assign name value) := by
  unfold RenderState.assign
  rw [h.scopes]
  cases rebind? name value t.scopes with
  | some scopes => exact { h with scopes := rfl }
  | none =>
    rw [h.resolver]
    cases t.resolver.assign? name value <;> exact { h with scopes := rfl, resolver := rfl }

/-- The blocks of a number are declared alike, or there is none on either side. -/
theorem block? (h : c.States v s t) (id : Nat) :
    Option.Rel (c.Blocks v.world) (s.store.block? id) (t.store.block? id) := by
  have hblocks := h.stores.blocks
  rw [Store.block?, Store.block?, ← Array.getElem?_toList, ← Array.getElem?_toList]
  exact rel_getElem? hblocks id

/-- A block gets the same number on both sides. -/
theorem declare {a b : Template} {place place' : Nat} (h : c.States v s t)
    (hentry : c.Entries v.world ⟨a, .bodyAt place, s.currentDir⟩ ⟨b, .bodyAt place', t.currentDir⟩)
    (name : String) : c.States v (s.declare name a place) (t.declare name b place') := by
  have hstores := h.stores
  have hsize : s.store.blocks.size = t.store.blocks.size := by
    rw [← Array.length_toList, ← Array.length_toList]
    exact hstores.blocks.length_eq
  have hblocks :
      c.Stores v.world (s.declare name a place).store (t.declare name b place').store := by
    refine ⟨?_, ⟨hstores.left.size, hstores.left.serves⟩,
      ⟨hstores.right.size, hstores.right.serves⟩⟩
    simp only [RenderState.declare, Store.addBlock, Array.toList_push]
    exact List.rel_append hstores.blocks (.cons ⟨hentry, rfl, h.scopes⟩ .nil)
  refine { h with scopes := ?_, declared := ?_, stores := hblocks }
  all_goals simp only [RenderState.declare, Store.addBlock, hsize, h.scopes, h.declared]

end Comparison.States

/-! ### Steps on states -/

namespace Simulates

variable {α β : Type} {post : World → α → β → Prop} {left : RenderM α} {right : RenderM β}

/-- A step between two changes of the state. -/
theorem between {σ : Type} {enter : RenderState → σ × RenderState}
    {leave : σ → RenderState → RenderState} (h : Simulates c c.rendering v post left right)
    (henter : ∀ v' s t, c.States v' s t →
      (enter s).1 = (enter t).1 ∧ c.States v' (enter s).2 (enter t).2)
    (hleave : ∀ v₁ s t, c.States v₁ s t → ∀ v₂ s' t', c.States v₂ s' t' →
      c.States v₂ (leave (enter t).1 s') (leave (enter t).1 t')) :
    Simulates c c.rendering v post (RenderM.between enter leave left)
      (RenderM.between enter leave right) := by
  intro v₁ hv₁ s t hst
  obtain ⟨hkept, hinside⟩ := henter v₁ s t hst
  rw [run_between, run_between, hkept]
  obtain hgiven | ⟨v₂, hv₂, hstates, hresults⟩ := h v₁ hv₁ _ _ hinside
  · exact .inl hgiven
  · exact .inr ⟨v₂, hv₂, hleave _ _ _ hst _ _ _ hstates, hresults⟩

theorem withScope (h : Simulates c c.rendering v post left right) (scope : Scope) :
    Simulates c c.rendering v post (RenderM.withScope scope left)
      (RenderM.withScope scope right) :=
  h.between (fun _ _ _ hst => ⟨rfl, { hst with scopes := congrArg (scope :: ·) hst.scopes }⟩)
    fun _ _ _ _ _ _ _ hst => { hst with scopes := congrArg (List.drop 1) hst.scopes }

theorem withScopes (h : Simulates c c.rendering v post left right) (scopes : List Scope) :
    Simulates c c.rendering v post (RenderM.withScopes scopes left)
      (RenderM.withScopes scopes right) :=
  h.between (fun _ _ _ hst => ⟨hst.scopes, { hst with scopes := rfl }⟩)
    fun _ _ _ _ _ _ _ hst => { hst with scopes := rfl }

/-- A step in a directory, compared with one in another directory. -/
theorem withDir {dir dir' : Path} (hpaths : c.paths dir dir')
    (h : Simulates c c.rendering (v.push dir dir') post left right) :
    Simulates c c.rendering v post (RenderM.withDir dir left) (RenderM.withDir dir' right) := by
  intro v₁ hv₁ s t hst
  have hview : v.push dir dir' ≤ v₁.push dir dir' :=
    ⟨hv₁.1, congrArg (dir :: ·) hv₁.2.1, congrArg (dir' :: ·) hv₁.2.2⟩
  have hinside : c.States (v₁.push dir dir') (s.pushDir dir) (t.pushDir dir') :=
    { hst with
      left := congrArg (dir :: ·) hst.left
      right := congrArg (dir' :: ·) hst.right
      paths := hpaths }
  rw [RenderM.withDir, RenderM.withDir, run_between, run_between]
  obtain hgiven | ⟨v₂, hv₂, hstates, hresults⟩ := h _ hview _ _ hinside
  · exact .inl hgiven
  · refine .inr ⟨⟨v₂.world, v₁.left, v₁.right⟩, ⟨hv₂.1, rfl, rfl⟩, ?_, hresults⟩
    -- The step leaves the directories as it found them.
    have hleft (s' : RenderState) (h : s'.dirs = v₂.left) : s'.popDir.dirs = s.dirs := by
      rw [RenderState.popDir, h, hv₂.2.1, hst.left]
      rfl
    have hright (t' : RenderState) (h : t'.dirs = v₂.right) : t'.popDir.dirs = t.dirs := by
      rw [RenderState.popDir, h, hv₂.2.2, hst.right]
      rfl
    have hpaths' := hst.paths
    rw [RenderState.currentDir, RenderState.currentDir, ← hleft _ hstates.left,
      ← hright _ hstates.right] at hpaths'
    exact { hstates with
      left := (hleft _ hstates.left).trans hst.left
      right := (hright _ hstates.right).trans hst.right
      paths := hpaths' }

/-- A step in a directory, compared with one in the directory where the right render stands. -/
theorem withDir_left {dir : Path}
    (hpaths : ∀ v₁, v ≤ v₁ → ∀ s t, c.States v₁ s t → c.paths dir t.currentDir)
    (h : Simulates c c.rendering ⟨v.world, dir :: v.left, v.right⟩ post left right) :
    Simulates c c.rendering v post (RenderM.withDir dir left) right := by
  intro v₁ hv₁ s t hst
  have hview : (⟨v.world, dir :: v.left, v.right⟩ : View) ≤
      ⟨v₁.world, dir :: v₁.left, v₁.right⟩ :=
    ⟨hv₁.1, congrArg (dir :: ·) hv₁.2.1, hv₁.2.2⟩
  have hinside : c.States ⟨v₁.world, dir :: v₁.left, v₁.right⟩ (s.pushDir dir) t :=
    { hst with
      left := congrArg (dir :: ·) hst.left
      paths := hpaths v₁ hv₁ s t hst }
  rw [RenderM.withDir, run_between]
  obtain hgiven | ⟨v₂, hv₂, hstates, hresults⟩ := h _ hview _ _ hinside
  · exact .inl hgiven
  · refine .inr ⟨⟨v₂.world, v₁.left, v₁.right⟩, ⟨hv₂.1, rfl, rfl⟩, ?_, hresults⟩
    -- The step leaves the directories as it found them.
    have hleft (s' : RenderState) (h : s'.dirs = v₂.left) : s'.popDir.dirs = s.dirs := by
      rw [RenderState.popDir, h, hv₂.2.1, hst.left]
      rfl
    have hright : (right.run.run t).2.dirs = t.dirs :=
      hstates.right.trans (hv₂.2.2.trans hst.right.symm)
    have hpaths' := hst.paths
    rw [RenderState.currentDir, RenderState.currentDir, ← hleft _ hstates.left, ← hright] at hpaths'
    exact { hstates with
      left := (hleft _ hstates.left).trans hst.left
      right := hright.trans hst.right
      paths := hpaths' }

theorem captured {left right : RenderM Unit} (h : Simulates c c.rendering v Same left right) :
    Simulates c c.rendering v Same (RenderM.captured left) (RenderM.captured right) := by
  refine between (h.bind_same fun _ _ _ => get_bind fun _ _ s t hst => ?_)
    (fun _ _ _ hst => ⟨hst.sink, { hst with sink := rfl, sinks := c.sinks_collector }⟩)
    fun _ _ _ hst _ _ _ hst' => { hst' with sink := rfl, sinks := hst.sink ▸ hst.sinks }
  rw [hst.sink]
  exact pure_same t.sink.collected

theorem fail (fault : RenderFault) :
    Simulates c c.rendering v post (RenderM.fail fault : RenderM α) (RenderM.fail fault) :=
  .throw (c.alike_refl nofun)

/-- Writing a text. -/
theorem emit (text : String) :
    Simulates c c.rendering v Same (RenderM.emit text) (RenderM.emit text) := by
  intro v₁ _ s t hst
  refine .inr ⟨v₁, le_refl _, ?_⟩
  rw [run_emit, run_emit]
  split_ifs with htext
  · exact ⟨hst, .ok rfl⟩
  · have hsinks := c.sinks_append hst.sinks text
    rw [hst.sink] at hsinks ⊢
    refine ⟨{ hst with sink := rfl, sinks := hsinks }, ?_⟩
    cases (t.sink.append text).2 with
    | none => exact .ok rfl
    | some reason => exact .error (c.alike_refl nofun)

end Simulates

end TextTemplate
