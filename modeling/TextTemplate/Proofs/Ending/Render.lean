import TextTemplate.Proofs.Ending.Level

/-!
# Renders end

However a template includes itself, whatever blocks call each other, and whatever a resolver has
kept from earlier renders: a render without bounds ends, with the outcome of the render, and on the
way there are never more includes and block calls active than its options allow.

## Main definitions

* `Template.EndsWith` — how a run without bounds ends.

## Main results

* `Template.renders_end` — every render and every evaluation of a template ends.
-/

namespace TextTemplate

/-- What the levels of a render run ends. -/
theorem RenderOptions.endsBelow_level (options : RenderOptions) (files : FileTree) :
    (options.level files).EndsBelow (options.setting files) options.maxDepth :=
  Level.endsBelow_above (options.setting files) options.maxDepth

namespace Template

/-- From some number of tasks within one another on, a run has the given outcome. All includes and
block calls are left by then, and never were more active than so many. -/
def EndsWith {α : Type} (limit : Nat) (run : Nat → Option (Except TemplateError α × Machine))
    (outcome : Outcome α) : Prop :=
  ∃ calls machine, (∀ n ≥ calls, run n = some (outcome.result, machine)) ∧
    machine.active = 0 ∧ machine.peak ≤ limit ∧
    machine.state.sink = outcome.sink ∧ machine.state.resolver = outcome.resolver ∧
    machine.state.store = outcome.store

/-- A step that ends does so from the start of a render. -/
theorem endsWith_of_ends {α : Type} {limit : Nat} {ongoing : Nat → Step α} {step : RenderM α}
    (h : Ends limit limit ongoing step) (state : RenderState) :
    EndsWith limit (fun n => (ongoing n).run.run ⟨state, 0, 0⟩) (step.outcome state) := by
  obtain ⟨calls, peak, hpeak, hstep⟩ := h ⟨state, 0, 0⟩ (Nat.zero_add limit) (Nat.zero_le limit)
  exact ⟨calls, _, hstep, rfl, hpeak, rfl, rfl, rfl⟩

variable (template : Template) (options : RenderOptions) (files : FileTree) (store : Store)

private theorem endsWith_renderInto (sink : Sink) :
    EndsWith options.maxDepth (template.renderWithin options files store sink)
      (template.renderInto options files store sink) :=
  endsWith_of_ends (Level.ends_runPart (options.endsBelow_level files) template .whole) _

/-- Every render of a template ends, and so does every evaluation: without bounds on the nodes, the
branches and the rounds that are run, it comes to the outcome of the render, and never are more
includes and block calls active than the greatest depth of the render. -/
theorem renders_end :
    (∀ sink, EndsWith options.maxDepth (template.renderWithin options files store sink)
      (template.renderInto options files store sink)) ∧
    EndsWith options.maxDepth (template.evaluateWithin options files store)
      (template.evaluate options files store) := by
  refine ⟨template.endsWith_renderInto options files store, ?_⟩
  rw [evaluateWithin, evaluate]
  cases template.program.pureExpression? with
  | some expression =>
    obtain ⟨node, value⟩ := expression
    have hvalue := Level.ends_evaluate (options.endsBelow_level files) template value
    exact endsWith_of_ends (hvalue.located template node.span.start node.name) _
  | none =>
    obtain ⟨calls, machine, hrun, hactive, hpeak, hsink, hresolver, hstore⟩ :=
      template.endsWith_renderInto options files store .collector
    refine ⟨calls, machine, fun n hn => ?_, hactive, hpeak, hsink, hresolver, hstore⟩
    simp only [hrun n hn, Option.map_some, hsink, renderText]
    cases (template.renderInto options files store .collector).result <;> rfl

end Template

end TextTemplate
