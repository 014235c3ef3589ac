import TextTemplate.Proofs.Simulation.Walk
import TextTemplate.Render.Renderer

/-!
# Outcomes that agree

Corresponding templates rendered with corresponding options lead to the same result, and leave the
same text and the same variables behind. Values refer to blocks by number, and the blocks under a
number are declared alike.

## Main definitions

* `Outcome.Agrees`: outcomes that cannot be told apart.
* `Comparison.Outcomes`: outcomes that agree, unless the left render escapes.
* `RenderOptions.Simulates`: options that correspond.

## Main results

* `Template.simulates_renderInto`: rendering corresponding templates.
* `Template.simulates_evaluate_of_program`, `Template.simulates_evaluate`: evaluating templates.
-/

namespace TextTemplate

/-! ### Outcomes -/

/-- Two blocks of the same text, declared at the same place in the same scopes. -/
structure DeclaredBlock.Alike (compilers : Compiler → Compiler → Prop)
    (left right : DeclaredBlock) : Prop where
  name : left.name = right.name
  place : left.place = right.place
  scopes : left.scopes = right.scopes
  dir : left.dir = right.dir
  source : left.template.source = right.template.source
  compilers : compilers left.template.compiler right.template.compiler

/-- Two outcomes with the same result, the same text written, and the same variables, with blocks
that are alike under every number. -/
structure Outcome.Agrees {α : Type} (compilers : Compiler → Compiler → Prop)
    (left right : Outcome α) : Prop where
  result : left.result = right.result
  sink : left.sink = right.sink
  resolver : left.resolver = right.resolver
  blocks : List.Forall₂ (DeclaredBlock.Alike compilers) left.store.blocks.toList
    right.store.blocks.toList

section Outcomes

variable {c : Comparison} {w : World} {α : Type}

/-- The left outcome escapes, or the outcomes agree and leave stores that correspond. -/
def Comparison.Outcomes (c : Comparison) (w : World) (left right : Outcome α) : Prop :=
  (∃ e, left.result = .error e ∧ c.escapes e) ∨
    ∃ w', w ≤ w' ∧ c.Stores w' left.store right.store ∧ left.Agrees c.compilers right

theorem Comparison.Blocks.alike [hc : c.IsExact] {left right : DeclaredBlock}
    (h : c.Blocks w left right) : left.Alike c.compilers right where
  name := h.name
  place := Part.bodyAt.inj (hc.entries.1 h.entries.entries).2
  scopes := h.scopes
  dir := hc.paths h.entries.dirs
  source := (hc.entries.1 h.entries.entries).1
  compilers := h.entries.hosts.compilers

private theorem RenderM.outcome_eq (step : RenderM α) (s : RenderState) :
    step.outcome s = ⟨(step.run.run s).1, (step.run.run s).2.sink, (step.run.run s).2.resolver,
      (step.run.run s).2.store⟩ :=
  rfl

/-- The outcomes of steps that correspond. -/
theorem Simulates.outcomes [hc : c.IsExact] {v : View} {left right : RenderM α}
    (h : Simulates c c.rendering v Same left right) {s t : RenderState} (hst : c.States v s t) :
    c.Outcomes v.world (left.outcome s) (right.outcome t) := by
  rw [RenderM.outcome_eq, RenderM.outcome_eq]
  obtain hgiven | ⟨v', hv, hstates, hresults⟩ := h v (le_refl _) s t hst
  · generalize (left.run.run s).1 = result at hgiven
    generalize (right.run.run t).1 = result' at hgiven
    cases hgiven with
    | escapes he => exact .inl ⟨_, rfl, he⟩
    | excused he => exact absurd he (hc.excuses _)
  · have hblocks := hstates.stores.blocks.imp fun _ _ => Comparison.Blocks.alike
    refine .inr ⟨v'.world, hv.1, hstates.stores, ?_, hstates.sink, hstates.resolver, hblocks⟩
    generalize (left.run.run s).1 = result at hresults
    generalize (right.run.run t).1 = result' at hresults
    cases hresults with
    | ok hab => exact congrArg Except.ok hab
    | error he => exact congrArg Except.error (hc.alike.1 he)

end Outcomes

/-! ### Renders -/

/-- The same options, but for the templates registered under each name, which correspond. -/
structure RenderOptions.Simulates (c : Comparison) (w : World) (left right : RenderOptions) :
    Prop where
  context : left.context = right.context
  resolver : left.resolver = right.resolver
  registry : RegisteredAlike (fun a b => c.Templates w a b ∧ a.origin = b.origin) left.registry
    right.registry
  baseDir : left.baseDir = right.baseDir
  maxDepth : left.maxDepth = right.maxDepth

section Renders

variable {c : Comparison} {w : World} {options options' : RenderOptions} {files : FileTree}
  {a b : Template} {store store' : Store}

private theorem RenderOptions.Simulates.setting (h : options.Simulates c w options')
    (hfiles : c.trees files) :
    (options.setting files).Simulates c w (options'.setting files) :=
  ⟨h.context, rfl, hfiles, h.maxDepth, h.registry⟩

private theorem RenderOptions.Simulates.level [c.IsExact] (h : options.Simulates c w options')
    (hfiles : c.trees files) :
    (options.level files).Simulates c w (options'.level files) := by
  rw [RenderOptions.level, RenderOptions.level, ← h.maxDepth]
  exact (h.setting hfiles).above options.maxDepth

/-- Where the renders stand at the start. -/
def RenderOptions.view (options options' : RenderOptions) (a b : Template) (w : World) : View :=
  ⟨w, [options.baseDir.getD a.defaultDirectory], [options'.baseDir.getD b.defaultDirectory]⟩

theorem Comparison.states_initial (hresolver : options.resolver = options'.resolver)
    (hdirs : c.paths (options.baseDir.getD a.defaultDirectory)
      (options'.baseDir.getD b.defaultDirectory)) (hstores : c.Stores w store store') {sink : Sink}
    (hsink : c.sinks sink) :
    c.States (options.view options' a b w) (options.initial a store sink)
      (options'.initial b store' sink) where
  scopes := rfl
  declared := rfl
  resolver := hresolver
  sink := rfl
  sinks := hsink
  left := rfl
  right := rfl
  paths := hdirs
  stores := hstores

private theorem RenderOptions.Simulates.initial (h : options.Simulates c w options')
    (horigin : a.origin = b.origin) (hstores : c.Stores w store store') {sink : Sink}
    (hsink : c.sinks sink) :
    c.States (options.view options' a b w) (options.initial a store sink)
      (options'.initial b store' sink) := by
  refine c.states_initial h.resolver ?_ hstores hsink
  rw [← h.baseDir, Template.defaultDirectory, horigin]
  exact c.paths_refl _

/-- Rendering corresponding templates. -/
theorem Template.simulates_renderInto [hc : c.IsExact] (h : options.Simulates c w options')
    (hab : c.Templates w a b) (horigin : a.origin = b.origin) (hfiles : c.trees files)
    (hstores : c.Stores w store store') (sink : Sink) :
    c.Outcomes w (a.renderInto options files store sink)
      (b.renderInto options' files store' sink) :=
  Simulates.outcomes ((h.level hfiles).runPart (v := options.view options' a b w) hab .whole)
    (h.initial horigin hstores (hc.sinks sink))

/-- What is made of the outcomes that agree. -/
theorem Comparison.Outcomes.map {α β : Type} {left right : Outcome α} (h : c.Outcomes w left right)
    (f : Outcome α → α → β) (hf : left.Agrees c.compilers right → f left = f right) :
    c.Outcomes w { left with result := left.result.map (f left) }
      { right with result := right.result.map (f right) } := by
  obtain ⟨e, hresult, he⟩ | ⟨w', hw, hstores, hagrees⟩ := h
  · refine .inl ⟨e, ?_, he⟩
    rw [hresult]
    rfl
  · refine .inr ⟨w', hw, hstores, ?_, hagrees.sink, hagrees.resolver, hagrees.blocks⟩
    rw [hf hagrees, hagrees.result]

/-- The texts of renders that correspond. -/
theorem Template.outcomes_renderText
    (h : c.Outcomes w (a.renderInto options files store .collector)
      (b.renderInto options' files store' .collector)) :
    c.Outcomes w (a.renderText options files store) (b.renderText options' files store') :=
  h.map (fun outcome _ => outcome.sink.collected) fun hagrees => by rw [hagrees.sink]

/-- Evaluating corresponding templates with the same nodes. -/
theorem Template.simulates_evaluate_of_program [c.IsExact] (h : options.Simulates c w options')
    (hab : c.Templates w a b) (hprogram : a.program = b.program) (horigin : a.origin = b.origin)
    (hfiles : c.trees files) (hstores : c.Stores w store store') :
    c.Outcomes w (a.evaluate options files store) (b.evaluate options' files store') := by
  rw [evaluate, evaluate, ← hprogram]
  split
  · rename_i node value _
    have hlevel := h.level hfiles
    exact Simulates.outcomes (v := options.view options' a b w)
      (Level.Simulates.located (Comparison.locates_of_source (c := c) hab.source _ _)
        ((hab.reads hlevel).evaluate le_rfl (.same value)))
      (h.initial horigin hstores c.sinks_collector)
  · have hrender := simulates_renderInto h hab horigin hfiles hstores .collector
    exact (outcomes_renderText hrender).map (fun _ => Value.string) fun _ => rfl

/-- Evaluating a template. -/
theorem Template.simulates_evaluate [c.IsExact] (h : options.Simulates c w options')
    (haa : c.Templates w a a) (hfiles : c.trees files) (hstores : c.Stores w store store') :
    c.Outcomes w (a.evaluate options files store) (a.evaluate options' files store') :=
  simulates_evaluate_of_program h haa rfl rfl hfiles hstores

end Renders

end TextTemplate
