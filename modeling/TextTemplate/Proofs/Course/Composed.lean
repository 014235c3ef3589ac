import TextTemplate.Proofs.Course.Congruence

/-!
# What a render is put together from

However long a render is, it changes its state in a few ways only: it assigns to a variable,
declares a block, changes the include caches, or writes a text; and it runs steps within a new
scope, within a directory, within the scopes of a block, or with what they write captured. What
each of these keeps, a whole render keeps.

## Main definitions

* `Composed`: the steps that are put together from these operations.
* `Level.IsComposed`: levels below which only such steps are run.

## Main results

* `Composed.congruence`: being put together so is a property that the operations respect.
* `Level.composed_eval`, `Level.composed_runPart`: evaluating an expression and rendering a part of
  a template, at every level.
-/

namespace TextTemplate

/-- Steps that are put together from the operations of a render. Next to the state, only
`RenderM.emit` looks at the sink. -/
inductive Composed : {ε α : Type} → ExceptT ε (StateM RenderState) α → Prop
  | result {ε α : Type} (result : Except ε α) : Composed (ExceptT.mk (pure result))
  | bind {ε α α' : Type} {step : ExceptT ε (StateM RenderState) α}
      {next : α → ExceptT ε (StateM RenderState) α'} :
      Composed step → (∀ a, Composed (next a)) → Composed (step >>= next)
  | adapt {ε ε' α : Type} (f : ε → ε') {step : ExceptT ε (StateM RenderState) α} :
      Composed step → Composed (ExceptT.adapt f step)
  | get_bind {ε α : Type} {next : RenderState → ExceptT ε (StateM RenderState) α} :
      (∀ s sink, next { s with sink } = next s) → (∀ s, Composed (next s)) →
        Composed (get >>= next)
  | caches {ε α : Type} (f : Store → Except ε α × Array IncludeCache) :
      Composed (ExceptT.mk fun s =>
        ((f s.store).1, { s with store := { s.store with caches := (f s.store).2 } }))
  | assign {ε : Type} (name : String) (value : Value) :
      Composed (modify (·.assign name value) : ExceptT ε (StateM RenderState) Unit)
  | declare {ε : Type} (name : String) (template : Template) (place : Nat) :
      Composed (modify (·.declare name template place) : ExceptT ε (StateM RenderState) Unit)
  | emit (text : String) : Composed (RenderM.emit text)
  | withScope {α : Type} (scope : Scope) {step : RenderM α} :
      Composed step → Composed (RenderM.withScope scope step)
  | withDir {α : Type} (dir : Path) {step : RenderM α} :
      Composed step → Composed (RenderM.withDir dir step)
  | withScopes {α : Type} (outer : List Scope) {step : RenderM α} :
      Composed step → Composed (RenderM.withScopes ([] :: outer) step)
  | captured {step : RenderM Unit} : Composed step → Composed (RenderM.captured step)

namespace Composed

variable {ε α α' : Type} {step : ExceptT ε (StateM RenderState) α}

theorem pure (a : α) : Composed (Pure.pure a : ExceptT ε (StateM RenderState) α) :=
  .result (.ok a)

theorem map (f : α → α') (h : Composed step) :
    Composed (step >>= fun a => Pure.pure (f a)) :=
  h.bind fun a => .pure (f a)

end Composed

/-! ### Levels -/

theorem Composed.operations : Operations fun {_} (_ step : RenderM _) => Composed step where
  result _ := .result _
  bind := .bind
  get_bind _ := .get_bind
  caches f _ := .caches f
  assign := .assign
  declare := .declare
  emit := .emit
  withScope scope _ _ := .withScope scope
  withDir dir _ _ := .withDir dir
  withScopes outer _ _ := .withScopes outer
  captured := .captured

/-- Being put together from the operations of a render is a property that they respect. -/
theorem Composed.congruence : Congruence fun {_} (_ step : RenderM _) => Composed step :=
  Composed.operations.congruence fun _ _ _ _ => .adapt _

namespace Level

/-- One level deeper, only steps are run that are put together from the operations of a render. -/
def IsComposed (level : Level) : Prop :=
  Related (fun {_} (_ step : RenderM _) => Composed step) level level

variable {level : Level}

theorem composed_callBlock (h : level.IsComposed) (id : Nat) : Composed (level.callBlock id) :=
  related_callBlock Composed.congruence h id

theorem composed_call (h : level.IsComposed) (callee : Value) (args : List Value) :
    Composed (ExceptT.mk (level.call callee args)) := by
  cases callee with
  | block id name =>
    cases args with
    | nil =>
      rw [mk_call_block]
      exact ((composed_callBlock h id).captured.adapt _).map Value.string
    | cons arg args => exact .result _
  | _ => exact .result _

/-- Evaluating an expression is put together from the operations of a render. -/
theorem composed_eval (h : level.IsComposed) (e : Expr) : Composed (e.eval level.environment) := by
  have henvironments : Environment.Corresponds
      (fun (_ : Empty → ExceptT EvalError (StateM RenderState) _) step => Composed step)
      (fun _ => level.environment) level.environment :=
    { result := fun _ => .result _
      bind := fun hstep hnext => hstep.bind hnext
      lookup := fun _ => .get_bind (fun _ _ => rfl) fun _ => .pure _
      assign := fun name value => .assign name value
      call := composed_call h }
  exact Expr.corresponds_eval henvironments e

/-- Running a node is put together from the operations of a render, if running what is nested in it
is. -/
theorem composed_runNode (h : level.IsComposed) {template : Template}
    {runBody : Option Nat → RenderM Unit} (hbody : ∀ nested, Composed (runBody nested))
    (bound place : Nat) (node : Node) :
    Composed (level.runNode template runBody bound place node) :=
  @related_runNode _ Composed.congruence level level h template runBody runBody hbody bound place
    node

/-- Rendering a part of a template is put together from the operations of a render. -/
theorem composed_runPart (h : level.IsComposed) (template : Template) (part : Part) :
    Composed (level.runPart template part) :=
  related_runPart Composed.congruence h template part

theorem isComposed_above (setting : Setting) (levels : Nat) :
    (Level.above setting levels).IsComposed :=
  related_above Composed.congruence setting levels

end Level

end TextTemplate
