import Mathlib.Tactic.SplitIfs
import TextTemplate.Proofs.Course.Composed
import TextTemplate.Render.Renderer

/-!
# The states of a render

What each operation of a render keeps is kept from the start of a render to its end, and in every
state in between: within loops, included templates and called blocks, and before and after every
expression.

## Main definitions

* `Steady`: the relations between states in which every operation leaves its state.
* `Passes`: the states that a step passes through.
* `Template.Reaches`: the states that a render of a template passes through.
* `RenderState.Balanced`: states with equally many scopes and the same directories.

## Main results

* `Composed.steady`: a step leaves its state in every such relation.
* `Passes.keeps`: what holds in every state that a step passes through.
* `RenderState.steady_balanced`: no step leaves a scope or a directory behind.
* `Template.Reaches.scopes_ne_nil`: there is always a scope.
-/

namespace TextTemplate

/-! ### Relations that every step keeps -/

/-- Relations in which every operation of a render leaves its state. -/
structure Steady (R : RenderState → RenderState → Prop) : Prop where
  refl (s : RenderState) : R s s
  trans {s t u : RenderState} : R s t → R t u → R s u
  caches (s : RenderState) (caches : Array IncludeCache) :
    R s { s with store := { s.store with caches } }
  assign (s : RenderState) (name : String) (value : Value) : R s (s.assign name value)
  declare (s : RenderState) (name : String) (template : Template) (place : Nat) :
    R s (s.declare name template place)
  sink (s : RenderState) (sink : Sink) : R s { s with sink }
  withScope {s t : RenderState} {scope : Scope} : R (s.pushScope scope) t → R s t.popScope
  withDir {s t : RenderState} {dir : Path} : R (s.pushDir dir) t → R s t.popDir
  withScopes {s t : RenderState} {outer : List Scope} :
    R { s with scopes := [] :: outer } t → R s { t with scopes := s.scopes }

section Steady

variable {R : RenderState → RenderState → Prop} {ε α : Type}
  {step : ExceptT ε (StateM RenderState) α}

theorem Steady.emit (hR : Steady R) (text : String) (s : RenderState) :
    R s ((RenderM.emit text).run.run s).2 := by
  rw [run_emit]
  split_ifs
  · exact hR.refl s
  · exact hR.sink s _

/-- Capturing what a step writes leaves the sink as it was. -/
theorem snd_run_captured (step : RenderM Unit) (s : RenderState) :
    ((RenderM.captured step).run.run s).2 =
      { (step.run.run { s with sink := .collector }).2 with sink := s.sink } := by
  have hread (next : Except TemplateError Unit × RenderState) :
      (andThen (fun _ => (do return (← get).sink.collected : RenderM String)) next).2 = next.2 := by
    obtain ⟨_ | _, _⟩ := next <;> rfl
  rw [RenderM.captured, run_between, run_bind, hread]

theorem Steady.captured (hR : Steady R) {step : RenderM Unit} {s : RenderState}
    (h : R { s with sink := .collector } (step.run.run { s with sink := .collector }).2) :
    R s ((RenderM.captured step).run.run s).2 := by
  rw [snd_run_captured]
  exact hR.trans (hR.sink s .collector) (hR.trans h (hR.sink _ s.sink))

/-- A step that is put together from the operations of a render leaves its state in every relation
in which they do. -/
theorem Composed.steady (h : Composed step) (hR : Steady R) (s : RenderState) :
    R s (step.run.run s).2 := by
  induction h generalizing s with
  | result => exact hR.refl s
  | bind _ _ ihstep ihnext =>
    rw [run_bind]
    have hstep := ihstep s
    generalize StateT.run (ExceptT.run _) s = after at hstep
    obtain ⟨_ | a, t⟩ := after
    · exact hstep
    · exact hR.trans hstep (ihnext a t)
  | adapt _ _ ih => exact ih s
  | get_bind _ _ ih => exact ih s s
  | caches f => exact hR.caches s _
  | assign name value => exact hR.assign s name value
  | declare name template place => exact hR.declare s name template place
  | emit text => exact hR.emit text s
  | withScope scope _ ih => exact hR.withScope (ih (s.pushScope scope))
  | withDir dir _ ih => exact hR.withDir (ih (s.pushDir dir))
  | withScopes outer _ ih => exact hR.withScopes (ih { s with scopes := [] :: outer })
  | captured _ ih => exact hR.captured (ih { s with sink := .collector })

end Steady

/-! ### Balance -/

/-- As many scopes as before, and the same directories. -/
structure RenderState.Balanced (s t : RenderState) : Prop where
  scopes : t.scopes.length = s.scopes.length
  dirs : t.dirs = s.dirs

private theorem length_bindInnermost (name : String) (value : Value) (scopes : List Scope) :
    (bindInnermost name value scopes).length = scopes.length := by
  cases scopes <;> rfl

private theorem length_of_rebind? {name : String} {value : Value} {scopes scopes' : List Scope}
    (h : rebind? name value scopes = some scopes') : scopes'.length = scopes.length := by
  induction scopes generalizing scopes' with
  | nil => cases h
  | cons scope outer ih =>
    rw [rebind?] at h
    split_ifs at h
    · cases h
      rfl
    · obtain ⟨outer', houter, rfl⟩ := Option.map_eq_some_iff.1 h
      rw [List.length_cons, List.length_cons, ih houter]

private theorem RenderState.balanced_assign (s : RenderState) (name : String) (value : Value) :
    s.Balanced (s.assign name value) := by
  unfold assign
  split
  · rename_i scopes hscopes
    exact ⟨length_of_rebind? hscopes, rfl⟩
  · split
    · exact ⟨rfl, rfl⟩
    · exact ⟨length_bindInnermost name value s.scopes, rfl⟩

/-- No step leaves a scope or a directory behind, or takes one away. -/
theorem RenderState.steady_balanced : Steady Balanced where
  refl _ := ⟨rfl, rfl⟩
  trans h h' := ⟨h'.scopes.trans h.scopes, h'.dirs.trans h.dirs⟩
  caches _ _ := ⟨rfl, rfl⟩
  assign := balanced_assign
  declare _ _ _ _ := ⟨length_bindInnermost _ _ _, rfl⟩
  sink _ _ := ⟨rfl, rfl⟩
  withScope {s t scope} h := by
    refine ⟨?_, h.dirs⟩
    have hscopes : t.scopes.length = s.scopes.length + 1 := h.scopes
    rw [popScope, List.length_drop, hscopes]
    omega
  withDir {s t dir} h := by
    refine ⟨h.scopes, ?_⟩
    rw [popDir, h.dirs]
    rfl
  withScopes h := ⟨rfl, h.dirs⟩

/-! ### The states in between -/

/-- The step, begun in the first state, passes through the second one. Where a step can be put
together in more than one way, the states in between are counted for each of them: a render passes
through no others. -/
inductive Passes : {ε α : Type} → ExceptT ε (StateM RenderState) α → RenderState → RenderState →
    Prop
  | start {ε α : Type} (step : ExceptT ε (StateM RenderState) α) (s : RenderState) :
      Passes step s s
  | finish {ε α : Type} {step : ExceptT ε (StateM RenderState) α} (h : Composed step)
      (s : RenderState) : Passes step s (step.run.run s).2
  | first {ε α α' : Type} {step : ExceptT ε (StateM RenderState) α}
      {next : α → ExceptT ε (StateM RenderState) α'} {s t : RenderState} :
      Passes step s t → Passes (step >>= next) s t
  | next {ε α α' : Type} {step : ExceptT ε (StateM RenderState) α}
      {next : α → ExceptT ε (StateM RenderState) α'} {s s' t : RenderState} {a : α}
      (h : Composed step) :
      step.run.run s = (.ok a, s') → Passes (next a) s' t → Passes (step >>= next) s t
  | adapt {ε ε' α : Type} (f : ε → ε') {step : ExceptT ε (StateM RenderState) α}
      {s t : RenderState} : Passes step s t → Passes (ExceptT.adapt f step) s t
  | get_bind {ε α : Type} {next : RenderState → ExceptT ε (StateM RenderState) α}
      {s t : RenderState} : Passes (next s) s t → Passes (get >>= next) s t
  | withScope {α : Type} {scope : Scope} {step : RenderM α} {s t : RenderState} :
      Passes step (s.pushScope scope) t → Passes (RenderM.withScope scope step) s t
  | withDir {α : Type} {dir : Path} {step : RenderM α} {s t : RenderState} :
      Passes step (s.pushDir dir) t → Passes (RenderM.withDir dir step) s t
  | withScopes {α : Type} {outer : List Scope} {step : RenderM α} {s t : RenderState} :
      Passes step { s with scopes := [] :: outer } t →
        Passes (RenderM.withScopes ([] :: outer) step) s t
  | captured {step : RenderM Unit} {s t : RenderState} :
      Passes step { s with sink := .collector } t → Passes (RenderM.captured step) s t

/-- What every step keeps, and entering a scope, a directory or a block and capturing what is
written keep as well, holds in every state that a step passes through. -/
theorem Passes.keeps {P : RenderState → Prop}
    (hrun : ∀ {ε α : Type} {step : ExceptT ε (StateM RenderState) α} {s : RenderState},
      Composed step → P s → P (step.run.run s).2)
    (hscope : ∀ s scope, P s → P (s.pushScope scope)) (hdir : ∀ s dir, P s → P (s.pushDir dir))
    (hblock : ∀ s outer, P s → P { s with scopes := [] :: outer })
    (hsink : ∀ s, P s → P { s with sink := .collector })
    {ε α : Type} {step : ExceptT ε (StateM RenderState) α} {s t : RenderState}
    (h : Passes step s t) (hs : P s) : P t := by
  induction h with
  | start => exact hs
  | finish hstep s => exact hrun hstep hs
  | first _ ih => exact ih hs
  | next hstep hrunstep _ ih =>
    have hafter := hrun hstep hs
    rw [hrunstep] at hafter
    exact ih hafter
  | adapt _ _ ih => exact ih hs
  | get_bind _ ih => exact ih hs
  | withScope _ ih => exact ih (hscope _ _ hs)
  | withDir _ ih => exact ih (hdir _ _ hs)
  | withScopes _ ih => exact ih (hblock _ _ hs)
  | captured _ ih => exact ih (hsink _ hs)

/-- In a step that starts with a scope there is always one. -/
theorem Passes.scopes_ne_nil {ε α : Type} {step : ExceptT ε (StateM RenderState) α}
    {s t : RenderState} (h : Passes step s t) (hs : s.scopes ≠ []) : t.scopes ≠ [] := by
  refine h.keeps (P := fun s => s.scopes ≠ []) (fun {_ _ step s} hstep hs => ?_)
    (fun _ _ _ => List.cons_ne_nil _ _) (fun _ _ => id) (fun _ _ _ => List.cons_ne_nil _ _)
    (fun _ => id) hs
  have hlength := (hstep.steady RenderState.steady_balanced s).scopes
  rw [← List.length_pos_iff] at hs ⊢
  omega

/-! ### Renders -/

/-- The state is one that rendering or evaluating the template passes through. -/
inductive Template.Reaches (template : Template) (options : RenderOptions) (files : FileTree)
    (store : Store) : RenderState → Prop
  | render {sink : Sink} {s : RenderState} :
      Passes ((options.level files).runPart template .whole)
        (options.initial template store sink) s →
        Template.Reaches template options files store s
  | evaluate {node : Node} {value : Slot} {s : RenderState} :
      template.program.pureExpression? = some (node, value) →
      Passes (Level.located template node.span.start node.name
          ((options.level files).evaluate template value))
        (options.initial template store .collector) s →
        Template.Reaches template options files store s

/-- The state at the end of a render, whether it failed or not. -/
def Template.lastState (template : Template) (options : RenderOptions) (files : FileTree)
    (store : Store) (sink : Sink) : RenderState :=
  (((options.level files).runPart template .whole).run.run
    (options.initial template store sink)).2

theorem Template.reaches_lastState (template : Template) (options : RenderOptions)
    (files : FileTree) (store : Store) (sink : Sink) :
    template.Reaches options files store (template.lastState options files store sink) :=
  .render (.finish (Level.composed_runPart (Level.isComposed_above _ _) template .whole) _)

namespace Template.Reaches

variable {template : Template} {options : RenderOptions} {files : FileTree} {store : Store}
  {s : RenderState}

/-- What holds at the start of a render and is kept in every state that a step passes through. -/
theorem keeps {P : RenderState → Prop} (h : template.Reaches options files store s)
    (hstart : ∀ sink, P (options.initial template store sink))
    (hpasses : ∀ {α : Type} {step : RenderM α} {s t : RenderState}, Passes step s t → P s → P t) :
    P s := by
  cases h with
  | render h => exact hpasses h (hstart _)
  | evaluate _ h => exact hpasses h (hstart _)

/-- There is always a scope. -/
theorem scopes_ne_nil (h : template.Reaches options files store s) : s.scopes ≠ [] :=
  h.keeps (P := fun s => s.scopes ≠ []) (fun _ => List.cons_ne_nil _ _) Passes.scopes_ne_nil

end Template.Reaches

end TextTemplate
