import TextTemplate.Proofs.Evaluation
import TextTemplate.Proofs.Expression.Malformed
import TextTemplate.Proofs.Simulation.Basic

/-!
# Evaluations that agree

An expression is evaluated alike in environments that correspond. That a text is no expression is
found when it is read; the evaluation of an expression never fails for that reason, so that it
does not matter from where the offsets of such errors are counted.

## Main definitions

* `EvalError.Alike`, `Comparison.evaluating`: the errors of evaluations.
* `Environment.Simulates`: environments that correspond.

## Main results

* `Expr.simulates_eval`: evaluating an expression.
* `Slot.simulates_eval`: evaluating the expressions of a template.
-/

namespace TextTemplate

/-! ### Errors -/

/-- Errors of evaluations that are alike: the same error, of some kind, or failures of called blocks
that are alike. -/
inductive EvalError.Alike (c : Comparison) (kind : EvalError → Prop) : EvalError → EvalError → Prop
  | same {e : EvalError} (h : kind e) : EvalError.Alike c kind e e
  | nested {e e' : TemplateError} (h : c.alike e e') :
      EvalError.Alike c kind (.nested e) (.nested e')

/-- The failure of a called block with an error of this kind. -/
def EvalError.IsNested (kind : TemplateError → Prop) (e : EvalError) : Prop :=
  ∃ error, e = .nested error ∧ kind error

/-- The error is not the failure of a called block. -/
def EvalError.IsUnnested (e : EvalError) : Prop :=
  ∀ error, e ≠ .nested error

/-- In an evaluation a comparison is given up where it is in a called block; other errors are not
that a text is no expression. -/
def Comparison.evaluating (c : Comparison) : Failures EvalError where
  escapes := EvalError.IsNested c.escapes
  excuses := EvalError.IsNested c.excuses
  alike := EvalError.Alike c EvalError.IsOwn

/-- Reading an expression where it is evaluated, it may turn out that a text is none. -/
def Comparison.reading (c : Comparison) : Failures EvalError where
  escapes := EvalError.IsNested c.escapes
  excuses := EvalError.IsNested c.excuses
  alike := EvalError.Alike c EvalError.IsUnnested

theorem EvalError.IsNested.shift {kind : TemplateError → Prop} {e : EvalError} (h : e.IsNested kind)
    (base : Nat) : (e.shift base).IsNested kind := by
  obtain ⟨error, rfl, herror⟩ := h
  exact ⟨error, rfl, herror⟩

theorem EvalError.IsNested.toTemplateError {kind : TemplateError → Prop} {e : EvalError}
    (h : e.IsNested kind) : kind e.toTemplateError := by
  obtain ⟨error, rfl, herror⟩ := h
  exact herror

private theorem EvalError.IsUnnested.shift {e : EvalError} (h : e.IsUnnested) (base : Nat) :
    (e.shift base).IsUnnested := by
  cases e with
  | nested error => exact absurd rfl (h error)
  | _ => exact nofun

/-- As the failure of a render it has no place yet. -/
theorem EvalError.IsUnnested.toTemplateError {e : EvalError} (h : e.IsUnnested) :
    e.toTemplateError = (RenderFault.expression e).toError := by
  cases e with
  | nested error => exact absurd rfl (h error)
  | _ => rfl

private theorem EvalError.IsMalformed.isUnnested {e : EvalError} (h : e.IsMalformed) :
    e.IsUnnested := by
  obtain ⟨offset, reason, rfl⟩ := h
  exact nofun

theorem EvalError.shift_eq_of_isProper {e : EvalError} (h : e.IsProper) (base : Nat) :
    e.shift base = e := by
  cases e with
  | malformed offset reason => exact absurd rfl (h offset reason)
  | _ => rfl

/-! ### Environments -/

/-- Environments whose operations correspond. -/
structure Environment.Simulates (c : Comparison) (v : View)
    (left right : Environment (StateM RenderState)) : Prop where
  lookup (name : String) : TextTemplate.Simulates c c.evaluating v Same
    (ExceptT.lift (left.lookup name)) (ExceptT.lift (right.lookup name))
  assign (name : String) (value : Value) : TextTemplate.Simulates c c.evaluating v Same
    (ExceptT.lift (left.assign name value)) (ExceptT.lift (right.assign name value))
  call (callee : Value) (args : List Value) : TextTemplate.Simulates c c.evaluating v Same
    (ExceptT.mk (left.call callee args)) (ExceptT.mk (right.call callee args))

section Environments

variable {c : Comparison} {v v' : View} {left right : Environment (StateM RenderState)}

theorem Environment.Simulates.mono (h : left.Simulates c v right) (hv : v ≤ v') :
    left.Simulates c v' right where
  lookup name := (h.lookup name).mono hv
  assign name value := (h.assign name value).mono hv
  call callee args := (h.call callee args).mono hv

/-- Environments that correspond do so in every later view. -/
theorem Environment.Simulates.corresponds (h : left.Simulates c v right) :
    Environment.Corresponds
      (fun (step : Unit → ExceptT EvalError (StateM RenderState) _) step' =>
        ∀ v', v ≤ v' → TextTemplate.Simulates c c.evaluating v' Same (step ()) step')
      (fun _ => left) right where
  result hresult _ _ := .of_result fun e he => EvalError.Alike.same (hresult e he)
  bind h hnext v' hv := (h v' hv).bind_same fun v'' hv' a => hnext a v'' (hv.trans hv')
  lookup name _ hv := (h.lookup name).mono hv
  assign name value _ hv := (h.assign name value).mono hv
  call callee args _ hv := (h.call callee args).mono hv

/-- Evaluating an expression. -/
theorem Expr.simulates_eval (e : Expr) (h : left.Simulates c v right) :
    Simulates c c.evaluating v Same (e.eval left) (e.eval right) :=
  corresponds_eval h.corresponds e v le_rfl

/-! ### Texts and the expressions of a template -/

theorem Simulates.reading {α : Type} {step step' : ExceptT EvalError (StateM RenderState) α}
    (h : Simulates c c.evaluating v Same step step') :
    Simulates c c.reading v Same step step' := by
  refine h.weaken (fun _ => id) (fun _ => id) fun e e' he => ?_
  cases he with
  | same hown => exact .same hown.2
  | nested herror => exact .nested herror

theorem simulates_evaluateText (h : left.Simulates c v right) (text : String) :
    Simulates c c.reading v Same (evaluateText left text) (evaluateText right text) := by
  have hread : Simulates c c.reading v Same (ExceptT.mk (pure (Expr.parse text)))
      (ExceptT.mk (pure (Expr.parse text))) :=
    .of_result fun _ he => EvalError.Alike.same (Expr.isMalformed_of_parse he).isUnnested
  exact hread.bind_same fun v' hv e => (Expr.simulates_eval e (h.mono hv)).reading

theorem evaluateText_of_read {m : Type → Type} [Monad m] [LawfulMonad m] {env : Environment m}
    {source : String} {span : Span} {e : Expr} (h : Slot.read source span = .ok e) :
    evaluateText env (span.slice source) = e.eval env := by
  have hparse := Attempt.mapError_eq_ok_iff.1 h
  rw [evaluateText, hparse]
  exact pure_bind e _

/-- Evaluating the expressions of templates, whenever they are read. -/
theorem Slot.simulates_eval (h : left.Simulates c v right) {source : String} {slot slot' : Slot}
    (hslot : Slot.Alike source slot slot') :
    Simulates c c.reading v Same (slot.eval left source) (slot'.eval right source) := by
  cases hslot with
  | same =>
    cases slot with
    | parsed span e => exact (Expr.simulates_eval e h).reading
    | raw span =>
      refine (simulates_evaluateText h (span.slice source)).adapt (fun _ he => he.shift span.start)
        (fun _ he => he.shift span.start) fun e e' he => ?_
      cases he with
      | same hunnested => exact .same (hunnested.shift span.start)
      | nested herror => exact .nested herror
  | @later span e hread =>
    have hleft : Slot.eval left source (.parsed span e) = ExceptT.adapt id (e.eval left) :=
      (adapt_id _).symm
    rw [hleft, Slot.eval, evaluateText_of_read hread]
    refine (Expr.simulates_eval e h).adapt (fun _ => id) (fun _ he => he.shift span.start)
      fun e e' he => ?_
    cases he with
    | same hown =>
      rw [EvalError.shift_eq_of_isProper hown.1]
      exact .same hown.2
    | nested herror => exact .nested herror

end Environments

end TextTemplate
