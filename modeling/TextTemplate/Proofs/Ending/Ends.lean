import TextTemplate.Proofs.Ending.Unbounded
import TextTemplate.Proofs.Evaluation
import TextTemplate.Proofs.Steps

/-!
# Steps that end

A step without bounds ends if it has the same result from some number of tasks within one another
on. What it does is then stated by a step of a render, on a level below which so many more levels
are allowed: on the same state it gives the same result and leaves the same state, and on the way
there are never more includes and block calls active than the limit allows.

## Main definitions

* `Ends` — a step without bounds ends, and does what a step of a render does.

## Main results

* `Ends.bind`, `Ends.within`, `Ends.counted` — steps that are put together from steps that end.
* `Ends.of_step` — a task ends if its step does.
-/

namespace TextTemplate

namespace Step

private theorem run_bind {ε α β : Type} (step : ExceptT ε Ongoing α)
    (next : α → ExceptT ε Ongoing β) (machine : Machine) :
    (step >>= next).run.run machine =
      (step.run.run machine).bind fun (result, after) =>
        (ExceptT.bindCont next result).run after :=
  rfl

private theorem run_adapt {ε ε' α : Type} (f : ε → ε') (step : ExceptT ε Ongoing α)
    (machine : Machine) : (ExceptT.adapt f step).run.run machine =
      (step.run.run machine).bind fun (result, after) => some (result.mapError f, after) :=
  rfl

private theorem run_between {α σ : Type} (enter : Machine → σ × Machine)
    (leave : σ → Machine → Machine) (step : Step α) (machine : Machine) :
    (between enter leave step).run.run machine =
      (step.run.run (enter machine).2).bind fun (result, after) =>
        some (result, leave (enter machine).1 after) :=
  rfl

end Step

/-- With so many of the allowed includes and calls left, the steps without bounds are from some
number on a step of a render, and never are more includes and calls active than allowed. -/
def Ends {ε α : Type} (limit levels : Nat) (ongoing : Nat → ExceptT ε Ongoing α)
    (step : ExceptT ε (StateM RenderState) α) : Prop :=
  ∀ machine : Machine, machine.active + levels = limit → machine.peak ≤ limit →
    ∃ calls peak, peak ≤ limit ∧ ∀ n ≥ calls,
      (ongoing n).run.run machine =
        some ((step.run.run machine.state).1,
          ⟨(step.run.run machine.state).2, machine.active, peak⟩)

namespace Ends

variable {ε ε' α β σ : Type} {limit levels : Nat}

/-! ### Rules -/

/-- A step that changes the state only ends at once. -/
theorem immediate {ongoing : ExceptT ε Ongoing α} {step : ExceptT ε (StateM RenderState) α}
    (h : ∀ machine : Machine, ongoing.run.run machine =
      some ((step.run.run machine.state).1,
        { machine with state := (step.run.run machine.state).2 })) :
    Ends limit levels (fun _ => ongoing) step :=
  fun machine _ hpeak => ⟨0, machine.peak, hpeak, fun _ _ => h machine⟩

theorem result (result : Except ε α) :
    Ends limit levels (fun _ => ExceptT.mk (pure result)) (ExceptT.mk (pure result)) :=
  immediate fun _ => rfl

theorem pure (a : α) :
    Ends limit levels (fun _ => (Pure.pure a : ExceptT ε Ongoing α)) (Pure.pure a) :=
  result (.ok a)

theorem throw (e : ε) :
    Ends limit levels (fun _ => (MonadExcept.throw e : ExceptT ε Ongoing α))
      (MonadExcept.throw e) :=
  result (.error e)

theorem plain (step : ExceptT ε (StateM RenderState) α) :
    Ends limit levels (fun _ => Step.plain step) step :=
  immediate fun _ => rfl

theorem modify (f : RenderState → RenderState) :
    Ends limit levels
      (fun _ => (modify fun machine => { machine with state := f machine.state } :
        ExceptT ε Ongoing PUnit))
      (modify f) :=
  immediate fun _ => rfl

/-- What comes after a step has to end only for what the step can result in. -/
theorem bind_of {ongoing : Nat → ExceptT ε Ongoing α} {step : ExceptT ε (StateM RenderState) α}
    {next : Nat → α → ExceptT ε Ongoing β} {next' : α → ExceptT ε (StateM RenderState) β}
    (h : Ends limit levels ongoing step)
    (hnext : ∀ a, (∃ s, (step.run.run s).1 = .ok a) →
      Ends limit levels (fun n => next n a) (next' a)) :
    Ends limit levels (fun n => ongoing n >>= next n) (step >>= next') := by
  intro machine hactive hpeak
  obtain ⟨calls, peak, hpeak, hstep⟩ := h machine hactive hpeak
  rw [TextTemplate.run_bind]
  generalize hreached : step.run.run machine.state = reached at hstep
  obtain ⟨result, after⟩ := reached
  cases result with
  | error e =>
    refine ⟨calls, peak, hpeak, fun n hn => ?_⟩
    rw [Step.run_bind, hstep n hn]
    rfl
  | ok a =>
    obtain ⟨calls', peak', hpeak', hrest⟩ :=
      hnext a ⟨_, congrArg Prod.fst hreached⟩ ⟨after, machine.active, peak⟩ hactive hpeak
    refine ⟨max calls calls', peak', hpeak', fun n hn => ?_⟩
    rw [Step.run_bind, hstep n (Nat.le_trans (Nat.le_max_left ..) hn)]
    exact hrest n (Nat.le_trans (Nat.le_max_right ..) hn)

theorem bind {ongoing : Nat → ExceptT ε Ongoing α} {step : ExceptT ε (StateM RenderState) α}
    {next : Nat → α → ExceptT ε Ongoing β} {next' : α → ExceptT ε (StateM RenderState) β}
    (h : Ends limit levels ongoing step)
    (hnext : ∀ a, Ends limit levels (fun n => next n a) (next' a)) :
    Ends limit levels (fun n => ongoing n >>= next n) (step >>= next') :=
  h.bind_of fun a _ => hnext a

theorem map {ongoing : Nat → ExceptT ε Ongoing α} {step : ExceptT ε (StateM RenderState) α}
    (h : Ends limit levels ongoing step) (f : α → β) :
    Ends limit levels (fun n => ongoing n >>= fun a => Pure.pure (f a))
      (step >>= fun a => Pure.pure (f a)) :=
  h.bind fun a => .pure (f a)

theorem discard {ongoing : Nat → ExceptT ε Ongoing α} {step : ExceptT ε (StateM RenderState) α}
    (h : Ends limit levels ongoing step) :
    Ends limit levels (fun n => ongoing n >>= fun _ => Pure.pure ())
      (Functor.discard step : ExceptT ε (StateM RenderState) Unit) := by
  rw [discard_eq_bind]
  exact h.map fun _ => ()

/-- What a step looks up in the machine, a step of a render looks up in the state. -/
theorem get_bind {next : Nat → Machine → ExceptT ε Ongoing α}
    {next' : RenderState → ExceptT ε (StateM RenderState) α}
    (h : ∀ machine, Ends limit levels (fun n => next n machine) (next' machine.state)) :
    Ends limit levels (fun n => get >>= next n) (get >>= next') :=
  fun machine => h machine machine

/-- What is active in the machine is known from what is left. -/
theorem of_get {next : Nat → Machine → ExceptT ε Ongoing α}
    {step : ExceptT ε (StateM RenderState) α}
    (h : ∀ machine, machine.active + levels = limit →
      Ends limit levels (fun n => next n machine) step) :
    Ends limit levels (fun n => get >>= next n) step :=
  fun machine hactive => h machine hactive machine hactive

theorem adapt {ongoing : Nat → ExceptT ε Ongoing α} {step : ExceptT ε (StateM RenderState) α}
    (h : Ends limit levels ongoing step) (f : ε → ε') :
    Ends limit levels (fun n => ExceptT.adapt f (ongoing n)) (ExceptT.adapt f step) := by
  intro machine hactive hpeak
  obtain ⟨calls, peak, hpeak, hstep⟩ := h machine hactive hpeak
  refine ⟨calls, peak, hpeak, fun n hn => ?_⟩
  rw [Step.run_adapt, hstep n hn]
  rfl

/-! ### Renders -/

section Renders

variable {ongoing : Nat → Step α} {step : RenderM α}

theorem located (h : Ends limit levels ongoing step) (template : Template) (offset : Nat)
    (name : String) :
    Ends limit levels (fun n => Step.located template offset name (ongoing n))
      (Level.located template offset name step) :=
  h.adapt _

theorem within {enter : RenderState → σ × RenderState} {leave : σ → RenderState → RenderState}
    (h : Ends limit levels ongoing step) :
    Ends limit levels (fun n => Step.within enter leave (ongoing n))
      (RenderM.between enter leave step) := by
  intro machine hactive hpeak
  obtain ⟨calls, peak, hpeak, hstep⟩ :=
    h { machine with state := (enter machine.state).2 } hactive hpeak
  refine ⟨calls, peak, hpeak, fun n hn => ?_⟩
  rw [Step.within, Step.run_between, hstep n hn]
  rfl

theorem withScope (h : Ends limit levels ongoing step) (scope : Scope) :
    Ends limit levels (fun n => Step.withScope scope (ongoing n))
      (RenderM.withScope scope step) :=
  h.within

theorem withDir (h : Ends limit levels ongoing step) (dir : Path) :
    Ends limit levels (fun n => Step.withDir dir (ongoing n)) (RenderM.withDir dir step) :=
  h.within

theorem withScopes (h : Ends limit levels ongoing step) (scopes : List Scope) :
    Ends limit levels (fun n => Step.withScopes scopes (ongoing n))
      (RenderM.withScopes scopes step) :=
  h.within

theorem captured {ongoing : Nat → Step Unit} {step : RenderM Unit}
    (h : Ends limit levels ongoing step) :
    Ends limit levels (fun n => Step.captured (ongoing n)) (RenderM.captured step) :=
  within (h.bind fun _ => get_bind fun _ => .pure _)

/-- An include or a call takes one of those that are left. -/
theorem counted (h : Ends limit levels ongoing step) :
    Ends limit (levels + 1) (fun n => Step.counted (ongoing n)) step := by
  intro machine hactive hpeak
  obtain ⟨calls, peak, hpeak, hstep⟩ :=
    h ⟨machine.state, machine.active + 1, max machine.peak (machine.active + 1)⟩
      (by dsimp only; omega) (by dsimp only; omega)
  refine ⟨calls, peak, hpeak, fun n hn => ?_⟩
  rw [Step.counted, Step.run_between, hstep n hn]
  rfl

end Renders

/-- A task ends if its step does, with one task more within one another. -/
theorem of_step {setting : Setting} {task : Task} {step : RenderM Unit}
    (h : Ends limit levels (fun n => Task.step setting (Task.run setting n) task) step) :
    Ends limit levels (fun n => Task.run setting n task) step := by
  intro machine hactive hpeak
  obtain ⟨calls, peak, hpeak, hstep⟩ := h machine hactive hpeak
  refine ⟨calls + 1, peak, hpeak, fun n hn => ?_⟩
  obtain ⟨n, rfl⟩ : ∃ m, n = m + 1 := ⟨n - 1, by omega⟩
  exact hstep n (by omega)

end Ends

end TextTemplate
