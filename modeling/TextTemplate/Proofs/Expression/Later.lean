import TextTemplate.Proofs.Simulation.Level

/-!
# Expressions that are read later

An expression of a template may be read when it is evaluated, and then the offset in an error counts
from the start of the template. That makes a difference only for a text that is no expression: once
a text is one, its evaluation is that of the expression, whatever it does and however it fails.

## Main definitions

* `FailsProperly` — steps that do not fail because a text is no expression.

## Main results

* `Expr.failsProperly_eval` — the evaluation of an expression is such a step.
* `Level.eval_raw` — an expression that is read later has the value that it has.
-/

namespace TextTemplate

/-- The step does not fail because a text is no expression. -/
def FailsProperly {α : Type} (step : ExceptT EvalError (StateM RenderState) α) : Prop :=
  ∀ s e, (step.run.run s).1 = .error e → e.IsProper

namespace FailsProperly

variable {α α' : Type} {step : ExceptT EvalError (StateM RenderState) α}
  {next : α → ExceptT EvalError (StateM RenderState) α'}

private theorem result {result : Except EvalError α} (h : Settled result) :
    FailsProperly (ExceptT.mk (pure result)) :=
  fun _ e he => (h e he).1

theorem pure (a : α) : FailsProperly (Pure.pure a) :=
  .result (.ok a)

private theorem lift (step : StateM RenderState α) : FailsProperly (ExceptT.lift step) :=
  fun _ _ => nofun

theorem bind (h : FailsProperly step) (hnext : ∀ a, FailsProperly (next a)) :
    FailsProperly (step >>= next) := by
  intro s
  rw [run_bind]
  have hstep := h s
  generalize step.run.run s = reached at hstep
  obtain ⟨result, s'⟩ := reached
  cases result with
  | error e =>
    rintro _ ⟨⟩
    exact hstep e rfl
  | ok a => exact hnext a s'

/-- It does not matter from where the offsets in its errors are counted. -/
theorem adapt_shift (h : FailsProperly step) (base : Nat) :
    ExceptT.adapt (EvalError.shift base) step = step := by
  funext s
  have hstep := h s
  change ((step.run.run s).1.mapError (EvalError.shift base), (step.run.run s).2) = step.run.run s
  generalize step.run.run s = reached at hstep
  obtain ⟨result, s'⟩ := reached
  cases result with
  | error e =>
    change (Except.error (e.shift base), s') = (.error e, s')
    rw [EvalError.shift_eq_of_isProper (hstep e rfl)]
  | ok a => rfl

end FailsProperly

/-- The evaluation of an expression does not fail because a text is no expression, if calls do
not. -/
theorem Expr.failsProperly_eval {env : Environment (StateM RenderState)}
    (h : ∀ callee args, FailsProperly (ExceptT.mk (env.call callee args))) (e : Expr) :
    FailsProperly (e.eval env) := by
  have hcorresponds : Environment.Corresponds
      (fun (_ : Empty → ExceptT EvalError (StateM RenderState) _) step => FailsProperly step)
      (fun _ => env) env :=
    { result := .result
      bind := fun h hnext => h.bind hnext
      lookup := fun name => .lift (env.lookup name)
      assign := fun name value => .lift (env.assign name value)
      call := h }
  exact corresponds_eval hcorresponds e

namespace Level

/-- An error of a called block is the error of a call. -/
theorem failsProperly_call (level : Level) (callee : Value) (args : List Value) :
    FailsProperly (ExceptT.mk (level.call callee args)) := by
  cases callee with
  | block id name =>
    cases args with
    | nil =>
      rw [mk_call_block]
      refine .bind (fun s => ?_) fun text => .pure _
      rw [run_adapt]
      cases ((RenderM.captured (level.callBlock id)).run.run s).1 with
      | ok text => exact nofun
      | error e =>
        rintro _ ⟨⟩
        exact nofun
    | cons arg args => exact .result (.error ⟨nofun, nofun⟩)
  | _ => exact .result (.error ⟨nofun, nofun⟩)

/-- An expression that is read when it is evaluated has the value that it has. -/
theorem eval_raw (level : Level) {source : String} {span : Span} {e : Expr}
    (h : Expr.parse (span.slice source) = .ok e) :
    Slot.eval level.environment source (.raw span) = e.eval level.environment := by
  have hread : Slot.read source span = .ok e := by
    rw [Slot.read, h, Attempt.mapError_ok]
  rw [Slot.eval, evaluateText_of_read hread]
  exact (Expr.failsProperly_eval level.failsProperly_call e).adapt_shift span.start

end Level

end TextTemplate
