import TextTemplate.Render.Run

/-!
# Running steps

What a step of a render does to a state, for the ways in which steps are put together.

## Main definitions

* `andThen`: what comes after a step that did not fail.
-/

namespace TextTemplate

/-- What a step leads to, and then what comes after it where it did not fail. -/
def andThen {ε α α' : Type} (next : α → ExceptT ε (StateM RenderState) α') :
    Except ε α × RenderState → Except ε α' × RenderState
  | (.ok a, s) => (next a).run.run s
  | (.error e, s) => (.error e, s)

theorem run_bind {ε α α' : Type} (step : ExceptT ε (StateM RenderState) α)
    (next : α → ExceptT ε (StateM RenderState) α') (s : RenderState) :
    (step >>= next).run.run s = andThen next (step.run.run s) := by
  change StateT.run (step.run >>= ExceptT.bindCont next) s = _
  rw [StateT.run_bind]
  rcases step.run.run s with ⟨_ | _, _⟩ <;> rfl

/-- A step that did not fail, and neither what comes after it. -/
theorem exists_of_run_bind {ε α α' : Type} {step : ExceptT ε (StateM RenderState) α}
    {next : α → ExceptT ε (StateM RenderState) α'} {s t : RenderState} {a' : α'}
    (h : (step >>= next).run.run s = (.ok a', t)) :
    ∃ a s', step.run.run s = (.ok a, s') ∧ (next a).run.run s' = (.ok a', t) := by
  rw [run_bind] at h
  generalize step.run.run s = after at h
  obtain ⟨_ | a, s'⟩ := after
  · cases h
  · exact ⟨a, s', rfl, h⟩

theorem run_get_bind {ε α : Type} (next : RenderState → ExceptT ε (StateM RenderState) α)
    (s : RenderState) : (get >>= next).run.run s = (next s).run.run s :=
  rfl

theorem fst_andThen_of_error {ε α α' : Type} {next : α → ExceptT ε (StateM RenderState) α'}
    {result : Except ε α × RenderState} {e : ε} (h : result.1 = .error e) :
    (andThen next result).1 = .error e := by
  obtain ⟨_, s⟩ := result
  subst h
  rfl

theorem run_adapt {ε ε' α : Type} (f : ε → ε') (step : ExceptT ε (StateM RenderState) α)
    (s : RenderState) :
    (ExceptT.adapt f step).run.run s = ((step.run.run s).1.mapError f, (step.run.run s).2) :=
  rfl

theorem adapt_id {ε α : Type} (step : ExceptT ε (StateM RenderState) α) :
    ExceptT.adapt id step = step := by
  funext s
  change ((step.run.run s).1.mapError id, (step.run.run s).2) = step.run.run s
  rcases step.run.run s with ⟨_ | _, _⟩ <;> rfl

theorem adapt_adapt {ε ε' ε'' α : Type} (f : ε → ε') (g : ε' → ε'')
    (step : ExceptT ε (StateM RenderState) α) :
    ExceptT.adapt g (ExceptT.adapt f step) = ExceptT.adapt (g ∘ f) step := by
  funext s
  change (((step.run.run s).1.mapError f).mapError g, (step.run.run s).2) =
    ((step.run.run s).1.mapError (g ∘ f), (step.run.run s).2)
  rcases step.run.run s with ⟨_ | _, _⟩ <;> rfl

theorem adapt_bind {ε ε' α α' : Type} (f : ε → ε') (step : ExceptT ε (StateM RenderState) α)
    (next : α → ExceptT ε (StateM RenderState) α') :
    ExceptT.adapt f (step >>= next) =
      ExceptT.adapt f step >>= fun a => ExceptT.adapt f (next a) := by
  funext s
  change (ExceptT.adapt f (step >>= next)).run.run s = (ExceptT.adapt f step >>= fun a =>
    ExceptT.adapt f (next a)).run.run s
  rw [run_adapt, run_bind, run_bind, run_adapt]
  rcases step.run.run s with ⟨_ | _, _⟩ <;> rfl

theorem run_between {σ α : Type} (enter : RenderState → σ × RenderState)
    (leave : σ → RenderState → RenderState) (step : RenderM α) (s : RenderState) :
    (RenderM.between enter leave step).run.run s =
      ((step.run.run (enter s).2).1, leave (enter s).1 (step.run.run (enter s).2).2) :=
  rfl

/-- Writing a text appends it to the sink, unless it is empty. -/
theorem run_emit (text : String) (s : RenderState) :
    (RenderM.emit text).run.run s =
      if text = "" then (.ok (), s)
      else
        ((match (s.sink.append text).2 with
          | none => .ok ()
          | some reason => .error (RenderFault.output reason).toError),
          { s with sink := (s.sink.append text).1 }) := by
  rw [RenderM.emit]
  by_cases h : text = ""
  · rw [if_pos h, if_neg (by simp [h])]
    rfl
  · rw [if_neg h, if_pos h]
    change (set { s with sink := (s.sink.append text).1 } >>= fun _ =>
      match (s.sink.append text).2 with
      | none => pure ()
      | some reason => RenderM.fail (.output reason) : RenderM Unit).run.run s = _
    rcases (s.sink.append text).2 with _ | reason <;> rfl

theorem discard_eq_bind {ε α : Type} (step : ExceptT ε (StateM RenderState) α) :
    Functor.discard step = step >>= fun _ => pure PUnit.unit := by
  rw [Functor.discard, LawfulFunctor.map_const, Function.comp_apply, map_eq_pure_bind]

/-- Reading a variable that has a value. -/
theorem Level.run_valueOf (level : Level) {s : RenderState} {name : String} {value : Value}
    (hvalue : s.lookup level.setting name = some value) :
    (Expr.valueOf level.environment name).run.run s = (.ok value, s) := by
  rw [Expr.valueOf, run_bind]
  change andThen _ (.ok (s.lookup level.setting name), s) = _
  rw [andThen, hvalue]
  rfl

@[simp] theorem Level.setting_above (setting : Setting) (levels : Nat) :
    (Level.above setting levels).setting = setting := by
  cases levels <;> rfl

/-- Calling a block, as a step that can fail. -/
theorem Level.mk_call_block (level : Level) (id : Nat) (name : String) :
    ExceptT.mk (level.call (.block id name) []) = (do
      let text ← ExceptT.adapt EvalError.nested (RenderM.captured (level.callBlock id))
      return Value.string text) := by
  funext s
  change (level.call (.block id name) []).run s = (ExceptT.adapt EvalError.nested
    (RenderM.captured (level.callBlock id)) >>= fun text => pure (Value.string text)).run.run s
  rw [run_bind, run_adapt, Level.call]
  simp only [List.isEmpty_nil, ↓reduceIte, StateT.run_bind]
  rcases (RenderM.captured (level.callBlock id)).run.run s with ⟨_ | _, _⟩ <;> rfl

end TextTemplate
