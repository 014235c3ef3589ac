import TextTemplate.Expr.Eval

/-!
# What holds of evaluations

That a text is no expression is found when it is read; the operations of an expression never fail
for that reason. And what relates the lookups, assignments and calls of two environments, and is
kept by putting steps together, relates the evaluations of every expression. Of the assignments,
only those to variables matter that the expression assigns to.

## Main definitions

* `EvalError.IsProper`: errors other than that a text is no expression.
* `EvalError.IsOwn`, `Settled`: those that are not the failure of a called block either.
* `Expr.targets`: the variables that an expression assigns to.
* `Environment.Corresponds`: environments that are related.

## Main results

* `Expr.corresponds_eval_of`: the evaluations of an expression are related if its assignments are.
* `Expr.corresponds_eval`: the evaluations of all expressions are related.
-/

namespace TextTemplate

/-! ### Operations -/

/-- The error is not that a text is no expression. -/
def EvalError.IsProper (e : EvalError) : Prop :=
  ∀ offset reason, e ≠ .malformed offset reason

/-- The error is that of an operation itself: neither that a text is no expression, nor the failure
of a called block. -/
def EvalError.IsOwn (e : EvalError) : Prop :=
  e.IsProper ∧ ∀ error, e ≠ .nested error

/-- A result, or an error of an operation itself. -/
def Settled {α : Type} (result : Except EvalError α) : Prop :=
  ∀ e, result = .error e → e.IsOwn

theorem Settled.ok {α : Type} (a : α) : Settled (.ok a) := nofun

theorem Settled.error {α : Type} {e : EvalError} (h : e.IsOwn) :
    Settled (.error e : Except EvalError α) := by
  rintro _ ⟨⟩
  exact h

namespace Value

private theorem settled_ofChecked : ∀ n : Option Int64, Settled (ofChecked n)
  | some _ => .ok _
  | none => .error ⟨nofun, nofun⟩

private theorem settled_add (a b : Value) : Settled (a.add b) := by
  rw [add.eq_def]
  split
  · exact settled_ofChecked _
  · exact .ok _
  · exact .ok _
  · exact .ok _
  · split
    · exact .ok _
    · exact .error ⟨nofun, nofun⟩

private theorem settled_compute {op : BinaryOp} {onInts : Int64 → Int64 → Except EvalError Value}
    {onFloats : Float → Float → Float} (h : ∀ m n, Settled (onInts m n)) (a b : Value) :
    Settled (compute op onInts onFloats a b) := by
  rw [compute.eq_def]
  split
  · exact h _ _
  · split
    · exact .ok _
    · exact .error ⟨nofun, nofun⟩

private theorem settled_divide (result? : Int64 → Int64 → Option Int64) (a b : Int64) :
    Settled (divide result? a b) := by
  rw [divide]
  split
  · exact .error ⟨nofun, nofun⟩
  · exact settled_ofChecked _

private theorem settled_comparison (op : BinaryOp) (holds : Ordering → Bool) (a b : Value) :
    Settled (comparison op holds a b) := by
  rw [comparison]
  split
  · exact .ok _
  · exact .error ⟨nofun, nofun⟩

private theorem settled_select (target : Value) (name : String) : Settled (target.select name) := by
  rw [select]
  split
  · exact .ok _
  · dsimp only
    split
    · split
      · exact settled_ofChecked _
      · exact .error ⟨nofun, nofun⟩
    · exact .error ⟨nofun, nofun⟩

private theorem settled_index (target place : Value) : Settled (target.index place) := by
  rw [index.eq_def]
  split
  · split
    · exact .ok _
    · exact .error ⟨nofun, nofun⟩
  · split
    · exact .ok _
    · exact .error ⟨nofun, nofun⟩
  · exact .ok _
  · exact .error ⟨nofun, nofun⟩

end Value

private theorem BinaryOp.settled_apply (op : BinaryOp) (a b : Value) : Settled (op.apply a b) := by
  cases op with
  | eq | ne | and | or => exact .ok _
  | lt | le | gt | ge => exact Value.settled_comparison _ _ a b
  | add => exact Value.settled_add a b
  | sub | mul => exact Value.settled_compute (fun _ _ => Value.settled_ofChecked _) a b
  | div | rem => exact Value.settled_compute (Value.settled_divide _) a b

private theorem UnaryOp.settled_apply (op : UnaryOp) (a : Value) : Settled (op.apply a) := by
  rw [UnaryOp.apply.eq_def]
  split
  · exact .ok _
  · exact Value.settled_ofChecked _
  · exact .ok _
  · exact .error ⟨nofun, nofun⟩

/-! ### Steps over a state -/

section Steps

variable {σ ε α β : Type} {step : ExceptT ε (StateM σ) α} {next : α → ExceptT ε (StateM σ) β}
  {s s' : σ}

/-- What comes after a step that did not fail. -/
theorem run_bind_of_fst_ok {a : α} (h : step.run.run s = (.ok a, s')) :
    (step >>= next).run.run s = (next a).run.run s' := by
  change StateT.run (step.run >>= ExceptT.bindCont next) s = _
  rw [StateT.run_bind, h]
  rfl

/-- Nothing comes after a step that failed. -/
theorem run_bind_of_fst_error {e : ε} (h : step.run.run s = (.error e, s')) :
    (step >>= next).run.run s = (.error e, s') := by
  change StateT.run (step.run >>= ExceptT.bindCont next) s = _
  rw [StateT.run_bind, h]
  rfl

end Steps

/-! ### Assignments -/

namespace Expr

mutual

/-- The variables that an expression assigns to. -/
def targets : Expr → List String
  | .literal _ | .ident _ => []
  | .list items => targetsAll items
  | .field target _ => targets target
  | .index target place => targets target ++ targets place
  | .call callee args => targets callee ++ targetsAll args
  | .unary _ operand => targets operand
  | .binary _ left right => targets left ++ targets right
  | .assign name _ value => name :: targets value
  | .sequence statements => targetsAll statements

/-- The variables that a list of expressions assigns to. -/
def targetsAll : List Expr → List String
  | [] => []
  | e :: es => targets e ++ targetsAll es

end

end Expr

/-! ### Evaluations -/

section Evaluations

variable {ι : Type} {m m' : Type → Type} [Monad m] [Monad m']

/-- A relation of steps in one monad, of which there is a family, to steps in another one; it is
kept by putting steps together, and lookups and calls in the environments are related. -/
structure Environment.ReadsAlike
    (related : {α : Type} → (ι → ExceptT EvalError m α) → ExceptT EvalError m' α → Prop)
    (env : ι → Environment m) (env' : Environment m') : Prop where
  result {α : Type} {result : Except EvalError α} (h : Settled result) :
    related (fun _ => ExceptT.mk (pure result)) (ExceptT.mk (pure result))
  bind {α β : Type} {step : ι → ExceptT EvalError m α} {step' : ExceptT EvalError m' α}
    {next : ι → α → ExceptT EvalError m β} {next' : α → ExceptT EvalError m' β}
    (h : related step step') (hnext : ∀ a, related (fun i => next i a) (next' a)) :
    related (fun i => step i >>= next i) (step' >>= next')
  lookup (name : String) :
    related (fun i => ExceptT.lift ((env i).lookup name)) (ExceptT.lift (env'.lookup name))
  call (callee : Value) (args : List Value) :
    related (fun i => ExceptT.mk ((env i).call callee args)) (ExceptT.mk (env'.call callee args))

/-- A relation of steps where moreover the assignments in the environments are related. -/
structure Environment.Corresponds
    (related : {α : Type} → (ι → ExceptT EvalError m α) → ExceptT EvalError m' α → Prop)
    (env : ι → Environment m) (env' : Environment m') : Prop
    extends Environment.ReadsAlike related env env' where
  assign (name : String) (value : Value) :
    related (fun i => ExceptT.lift ((env i).assign name value))
      (ExceptT.lift (env'.assign name value))

namespace Expr

variable {related : {α : Type} → (ι → ExceptT EvalError m α) → ExceptT EvalError m' α → Prop}
  {env : ι → Environment m} {env' : Environment m'}

private theorem corresponds_valueOf (h : Environment.ReadsAlike related env env') (name : String) :
    related (fun i => valueOf (env i) name) (valueOf env' name) := by
  refine h.bind (h.lookup name) fun value => ?_
  cases value with
  | some value => exact h.result (.ok value)
  | none => exact h.result (.error ⟨nofun, nofun⟩)

private theorem corresponds_assigned (h : Environment.ReadsAlike related env env') (name : String)
    (op : Option BinaryOp) (value : Value) :
    related (fun i => assigned (env i) name op value) (assigned env' name op value) := by
  cases op with
  | none => exact h.result (.ok value)
  | some op =>
    exact h.bind (corresponds_valueOf h name) fun current =>
      h.result (BinaryOp.settled_apply op current value)

/-- Assignments to variables of which this holds are related in the two environments. -/
def AssignsAlike
    (related : {α : Type} → (ι → ExceptT EvalError m α) → ExceptT EvalError m' α → Prop)
    (env : ι → Environment m) (env' : Environment m') (names : List String) : Prop :=
  ∀ name ∈ names, ∀ value, related (fun i => ExceptT.lift ((env i).assign name value))
    (ExceptT.lift (env'.assign name value))

section Assigns

variable {names names' : List String}

theorem AssignsAlike.left (h : AssignsAlike related env env' (names ++ names')) :
    AssignsAlike related env env' names :=
  fun name hname => h name (List.mem_append_left _ hname)

theorem AssignsAlike.right (h : AssignsAlike related env env' (names ++ names')) :
    AssignsAlike related env env' names' :=
  fun name hname => h name (List.mem_append_right _ hname)

end Assigns

mutual

/-- Evaluating an expression. -/
theorem corresponds_eval_of (h : Environment.ReadsAlike related env env') :
    ∀ e : Expr, AssignsAlike related env env' e.targets →
      related (fun i => e.eval (env i)) (e.eval env')
  | .literal l, _ => h.result (.ok l.value)
  | .list items, ha =>
    h.bind (corresponds_evalAll h items ha) fun values => h.result (.ok (Value.list values))
  | .ident name, _ => corresponds_valueOf h name
  | .field target name, ha =>
    h.bind (corresponds_eval_of h target ha) fun value => h.result (value.settled_select name)
  | .index target place, ha =>
    h.bind (corresponds_eval_of h target ha.left) fun value =>
      h.bind (corresponds_eval_of h place ha.right) fun index =>
        h.result (value.settled_index index)
  | .call callee args, ha =>
    h.bind (corresponds_eval_of h callee ha.left) fun value =>
      h.bind (corresponds_evalAll h args ha.right) fun values => h.call value values
  | .unary op operand, ha =>
    h.bind (corresponds_eval_of h operand ha) fun value => h.result (op.settled_apply value)
  | .binary op a b, ha => by
    cases op with
    | and =>
      simp only [eval]
      refine h.bind (corresponds_eval_of h a ha.left) fun value => ?_
      cases value.isTruthy with
      | true => exact h.bind (corresponds_eval_of h b ha.right) fun other => h.result (.ok _)
      | false => exact h.result (.ok _)
    | or =>
      simp only [eval]
      refine h.bind (corresponds_eval_of h a ha.left) fun value => ?_
      cases value.isTruthy with
      | true => exact h.result (.ok _)
      | false => exact h.bind (corresponds_eval_of h b ha.right) fun other => h.result (.ok _)
    | _ =>
      simp only [eval]
      exact h.bind (corresponds_eval_of h a ha.left) fun value =>
        h.bind (corresponds_eval_of h b ha.right) fun other =>
          h.result (BinaryOp.settled_apply _ value other)
  | .assign name op e, ha =>
    h.bind (corresponds_eval_of h e fun other hother => ha other (List.mem_cons_of_mem _ hother))
      fun value => h.bind (corresponds_assigned h name op value) fun value =>
        h.bind (ha name List.mem_cons_self value) fun _ => h.result (.ok value)
  | .sequence statements, ha => corresponds_evalLast h statements .null ha

theorem corresponds_evalAll (h : Environment.ReadsAlike related env env') :
    ∀ es : List Expr, AssignsAlike related env env' (targetsAll es) →
      related (fun i => evalAll (env i) es) (evalAll env' es)
  | [], _ => h.result (.ok [])
  | e :: es, ha =>
    h.bind (corresponds_eval_of h e ha.left) fun value =>
      h.bind (corresponds_evalAll h es ha.right) fun values => h.result (.ok (value :: values))

theorem corresponds_evalLast (h : Environment.ReadsAlike related env env') :
    ∀ (es : List Expr) (last : Value), AssignsAlike related env env' (targetsAll es) →
      related (fun i => evalLast (env i) last es) (evalLast env' last es)
  | [], last, _ => h.result (.ok last)
  | e :: es, _, ha =>
    h.bind (corresponds_eval_of h e ha.left) fun value => corresponds_evalLast h es value ha.right

end

/-- Evaluating an expression in environments where all assignments are related. -/
theorem corresponds_eval (h : Environment.Corresponds related env env') (e : Expr) :
    related (fun i => e.eval (env i)) (e.eval env') :=
  corresponds_eval_of h.toReadsAlike e fun name _ => h.assign name

end Expr

theorem corresponds_evaluateText {related :
      {α : Type} → (ι → ExceptT EvalError m α) → ExceptT EvalError m' α → Prop}
    {env : ι → Environment m} {env' : Environment m'}
    (h : Environment.Corresponds related env env') {text : String}
    (hread : related (fun _ => ExceptT.mk (pure (Expr.parse text)))
      (ExceptT.mk (pure (Expr.parse text)))) :
    related (fun i => evaluateText (env i) text) (evaluateText env' text) :=
  h.bind hread fun e => Expr.corresponds_eval h e

end Evaluations

end TextTemplate
