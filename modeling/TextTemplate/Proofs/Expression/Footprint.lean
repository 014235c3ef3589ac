import Mathlib.Data.List.Basic
import TextTemplate.Expr.Flat
import TextTemplate.Proofs.Evaluation

/-!
# What an expression reads and changes

An expression is evaluated from left to right over a table of variables. The rules of `Evaluates`
say so without a state: they give the assignments that are completed, in their order, and the value
or the error with which the evaluation ends. An assignment counts when its own value is there, not
before, so an error leaves behind just what the rules list. The table afterwards is the table before
with these assignments carried out.

The rules look at no names but those in the expression, and assign to no names but its targets.

## Main definitions

* `Expr.evalFlat`: the value of an expression over a table, and the table afterwards.
* `Expr.names`: the names in an expression.
* `Evaluates`: the assignments that an evaluation completes, and how it ends.
* `Follows`: a step does what rules say.

## Main results

* `Evaluates.unique`: the rules leave no choice.
* `Expr.eval_eq_conclude`: operands are evaluated from left to right, before a last step.
* `Expr.regular`: every evaluation goes by the rules.
* `Evaluates.congr`, `Evaluates.subset_targets`: the names that the rules look at and assign to.
* `evaluation_confined_to_names`: what an evaluation depends on and what it changes.
-/

namespace TextTemplate

/-! ### Tables of variables -/

namespace Bindings

variable {α : Type}

/-- The table after assignments, one after another. -/
def assignAll (vars : Bindings α) (done : List (String × α)) : Bindings α :=
  done.foldl (fun vars (name, a) => vars.insert name a) vars

private theorem assignAll_append (vars : Bindings α) (done more : List (String × α)) :
    vars.assignAll (done ++ more) = (vars.assignAll done).assignAll more :=
  List.foldl_append ..

/-- The same assignments lead from tables that agree on a name to such tables. -/
theorem find?_assignAll_congr {name : String} {vars vars' : Bindings α}
    (h : vars.find? name = vars'.find? name) (done : List (String × α)) :
    (vars.assignAll done).find? name = (vars'.assignAll done).find? name := by
  induction done generalizing vars vars' with
  | nil => exact h
  | cons assignment done ih =>
    obtain ⟨other, a⟩ := assignment
    have hnext : (vars.insert other a).find? name = (vars'.insert other a).find? name := by
      by_cases hname : name = other
      · rw [hname, find?_insert_self, find?_insert_self]
      · rw [find?_insert_of_ne hname, find?_insert_of_ne hname, h]
    exact ih hnext

/-- A name that is not assigned to keeps its value. -/
theorem find?_assignAll_of_notMem {name : String} {done : List (String × α)}
    (h : name ∉ done.map Prod.fst) (vars : Bindings α) :
    (vars.assignAll done).find? name = vars.find? name := by
  induction done generalizing vars with
  | nil => rfl
  | cons assignment done ih =>
    obtain ⟨other, a⟩ := assignment
    rw [List.map_cons, List.mem_cons, not_or] at h
    exact (ih h.2 (vars.insert other a)).trans (find?_insert_of_ne h.1 a vars)

end Bindings

/-! ### The parts of an expression -/

/-- What the left operand alone decides: a logical operator does not need its right operand when
the left one settles the result. -/
def BinaryOp.settledBy : BinaryOp → Value → Option Bool
  | .and, a => if a.isTruthy then none else some false
  | .or, a => if a.isTruthy then some true else none
  | _, _ => none

/-- Whether the right operand may be left out. -/
def BinaryOp.IsLogical (op : BinaryOp) : Prop :=
  op = .and ∨ op = .or

instance (op : BinaryOp) : Decidable op.IsLogical :=
  inferInstanceAs (Decidable (op = .and ∨ op = .or))

namespace Expr

mutual

/-- The names in an expression, as variables or as targets of assignments. -/
def names : Expr → List String
  | .literal _ => []
  | .list items => namesAll items
  | .ident name => [name]
  | .field target _ => names target
  | .index target place => names target ++ names place
  | .call callee args => names callee ++ namesAll args
  | .unary _ operand => names operand
  | .binary _ left right => names left ++ names right
  | .assign name _ value => name :: names value
  | .sequence statements => namesAll statements

/-- The names in a list of expressions. -/
def namesAll : List Expr → List String
  | [] => []
  | e :: es => names e ++ namesAll es

end

/-- The operands that are evaluated in any case, from left to right. -/
def operands : Expr → List Expr
  | .literal _ | .ident _ => []
  | .list items => items
  | .field target _ => [target]
  | .index target place => [target, place]
  | .call callee args => callee :: args
  | .unary _ operand => [operand]
  | .binary op left right => if op.IsLogical then [left] else [left, right]
  | .assign _ _ value => [value]
  | .sequence statements => statements

/-- The value of a variable of a table. -/
def valueIn (vars : Bindings Value) (name : String) : Except EvalError Value :=
  match vars.find? name with
  | some value => .ok value
  | none => .error (.unresolvable name)

/-- The value that is assigned: the new one, or the old one of the table combined with it. -/
def assignedIn (vars : Bindings Value) (name : String) (op : Option BinaryOp) (value : Value) :
    Except EvalError Value :=
  match op with
  | none => .ok value
  | some op => do op.apply (← valueIn vars name) value

/-- The value of an expression over a table of variables, where calls are refused, and the table
afterwards. -/
def evalFlat (e : Expr) (vars : Bindings Value) : Except EvalError Value × Bindings Value :=
  (e.eval (Environment.flat Environment.refuseCalls)).run.run vars

end Expr

/-! ### The rules of evaluation -/

open TextTemplate.Expr in
mutual

/-- The assignments that an evaluation over a table completes, in their order, and how it ends: with
the first operand that fails, or with a step of its own. -/
inductive Evaluates : Bindings Value → Expr → List (String × Value) → Except EvalError Value → Prop
  | operand {vars : Bindings Value} {e : Expr} {done : List (String × Value)} {error : EvalError}
      (stops : EvaluatesAll vars e.operands done (.error error)) :
      Evaluates vars e done (.error error)
  | finish {vars : Bindings Value} {e : Expr} {done more : List (String × Value)}
      {values : List Value} {result : Except EvalError Value}
      (operands : EvaluatesAll vars e.operands done (.ok values))
      (last : Concludes (vars.assignAll done) e values more result) :
      Evaluates vars e (done ++ more) result

/-- Expressions are evaluated one after another, up to the first that fails. -/
inductive EvaluatesAll :
    Bindings Value → List Expr → List (String × Value) → Except EvalError (List Value) → Prop
  | nil {vars : Bindings Value} : EvaluatesAll vars [] [] (.ok [])
  | cons {vars : Bindings Value} {e : Expr} {es : List Expr} {done more : List (String × Value)}
      {a : Value} {result : Except EvalError (List Value)} (first : Evaluates vars e done (.ok a))
      (others : EvaluatesAll (vars.assignAll done) es more result) :
      EvaluatesAll vars (e :: es) (done ++ more) (result.map (a :: ·))
  | stop {vars : Bindings Value} {e : Expr} {done : List (String × Value)} {error : EvalError}
      (first : Evaluates vars e done (.error error)) (es : List Expr) :
      EvaluatesAll vars (e :: es) done (.error error)

/-- The step with which an expression ends when its operands have these values. -/
inductive Concludes : Bindings Value → Expr → List Value → List (String × Value) →
    Except EvalError Value → Prop
  | literal (vars : Bindings Value) (l : Literal) :
      Concludes vars (.literal l) [] [] (.ok l.value)
  | list (vars : Bindings Value) (es : List Expr) (values : List Value) :
      Concludes vars (.list es) values [] (.ok (.list values))
  | ident (vars : Bindings Value) (name : String) :
      Concludes vars (.ident name) [] [] (valueIn vars name)
  | field (vars : Bindings Value) (e : Expr) (name : String) (a : Value) :
      Concludes vars (.field e name) [a] [] (a.select name)
  | index (vars : Bindings Value) (e f : Expr) (a b : Value) :
      Concludes vars (.index e f) [a, b] [] (a.index b)
  | call (vars : Bindings Value) (e : Expr) (es : List Expr) (a : Value) (values : List Value) :
      Concludes vars (.call e es) (a :: values) [] (Environment.refuseCalls a values)
  | unary (vars : Bindings Value) (op : UnaryOp) (e : Expr) (a : Value) :
      Concludes vars (.unary op e) [a] [] (op.apply a)
  | binary {vars : Bindings Value} {op : BinaryOp} {e f : Expr} {a b : Value}
      (strict : ¬ op.IsLogical) : Concludes vars (.binary op e f) [a, b] [] (op.apply a b)
  | settled {vars : Bindings Value} {op : BinaryOp} {e f : Expr} {a : Value} {c : Bool}
      (settles : op.settledBy a = some c) : Concludes vars (.binary op e f) [a] [] (.ok (.bool c))
  | unsettled {vars : Bindings Value} {op : BinaryOp} {e f : Expr} {a : Value}
      {done : List (String × Value)} {result : Except EvalError Value} (logical : op.IsLogical)
      (unsettled : op.settledBy a = none) (right : Evaluates vars f done result) :
      Concludes vars (.binary op e f) [a] done (result.map fun b => .bool b.isTruthy)
  | assign {vars : Bindings Value} {name : String} {op : Option BinaryOp} {e : Expr} {a b : Value}
      (assigned : assignedIn vars name op a = .ok b) :
      Concludes vars (.assign name op e) [a] [(name, b)] (.ok b)
  | unassigned {vars : Bindings Value} {name : String} {op : Option BinaryOp} {e : Expr}
      {a : Value} {error : EvalError} (fails : assignedIn vars name op a = .error error) :
      Concludes vars (.assign name op e) [a] [] (.error error)
  | sequence (vars : Bindings Value) (es : List Expr) (values : List Value) :
      Concludes vars (.sequence es) values [] (.ok (values.getLast?.getD .null))

end

/-! ### The rules leave no choice -/

mutual

/-- An evaluation completes the same assignments and ends the same way, however the rules are
applied. -/
theorem Evaluates.unique {vars : Bindings Value} {e : Expr} {done done' : List (String × Value)}
    {result result' : Except EvalError Value} :
    Evaluates vars e done result → Evaluates vars e done' result' →
      done = done' ∧ result = result'
  | .operand stops, .operand stops' => by
    obtain ⟨rfl, heq⟩ := stops.unique stops'
    cases heq
    exact ⟨rfl, rfl⟩
  | .operand stops, .finish operands _ => by cases (stops.unique operands).2
  | .finish operands _, .operand stops => by cases (operands.unique stops).2
  | .finish operands last, .finish operands' last' => by
    obtain ⟨rfl, heq⟩ := operands.unique operands'
    cases heq
    obtain ⟨rfl, rfl⟩ := last.unique last'
    exact ⟨rfl, rfl⟩

theorem EvaluatesAll.unique {vars : Bindings Value} {es : List Expr}
    {done done' : List (String × Value)} {result result' : Except EvalError (List Value)} :
    EvaluatesAll vars es done result → EvaluatesAll vars es done' result' →
      done = done' ∧ result = result'
  | .nil, .nil => ⟨rfl, rfl⟩
  | .cons first others, .cons first' others' => by
    obtain ⟨rfl, heq⟩ := first.unique first'
    cases heq
    obtain ⟨rfl, rfl⟩ := others.unique others'
    exact ⟨rfl, rfl⟩
  | .cons first _, .stop first' _ => by cases (first.unique first').2
  | .stop first _, .cons first' _ => by cases (first.unique first').2
  | .stop first _, .stop first' _ => by
    obtain ⟨rfl, heq⟩ := first.unique first'
    cases heq
    exact ⟨rfl, rfl⟩

theorem Concludes.unique {vars : Bindings Value} {e : Expr} {values : List Value}
    {done done' : List (String × Value)} {result result' : Except EvalError Value} :
    Concludes vars e values done result → Concludes vars e values done' result' →
      done = done' ∧ result = result'
  | .literal .., .literal .. => ⟨rfl, rfl⟩
  | .list .., .list .. => ⟨rfl, rfl⟩
  | .ident .., .ident .. => ⟨rfl, rfl⟩
  | .field .., .field .. => ⟨rfl, rfl⟩
  | .index .., .index .. => ⟨rfl, rfl⟩
  | .call .., .call .. => ⟨rfl, rfl⟩
  | .unary .., .unary .. => ⟨rfl, rfl⟩
  | .binary _, .binary _ => ⟨rfl, rfl⟩
  | .settled settles, .settled settles' => by
    cases settles.symm.trans settles'
    exact ⟨rfl, rfl⟩
  | .settled settles, .unsettled _ unsettled _ => by cases settles.symm.trans unsettled
  | .unsettled _ unsettled _, .settled settles => by cases settles.symm.trans unsettled
  | .unsettled _ _ right, .unsettled _ _ right' => by
    obtain ⟨rfl, rfl⟩ := right.unique right'
    exact ⟨rfl, rfl⟩
  | .assign assigned, .assign assigned' => by
    cases assigned.symm.trans assigned'
    exact ⟨rfl, rfl⟩
  | .assign assigned, .unassigned fails => by cases assigned.symm.trans fails
  | .unassigned fails, .assign assigned => by cases assigned.symm.trans fails
  | .unassigned fails, .unassigned fails' => by
    cases fails.symm.trans fails'
    exact ⟨rfl, rfl⟩
  | .sequence .., .sequence .. => ⟨rfl, rfl⟩

end

/-! ### Evaluation by the rules -/

namespace Expr

section Operands

variable {m : Type → Type} [Monad m]

/-- The last step of an evaluation, when the operands have these values. -/
def conclude (env : Environment m) : Expr → List Value → ExceptT EvalError m Value
  | .literal l, _ => return l.value
  | .list _, values => return .list values
  | .ident name, _ => valueOf env name
  | .field _ name, [a] => ExceptT.mk (pure (a.select name))
  | .index _ _, [a, b] => ExceptT.mk (pure (a.index b))
  | .call _ _, a :: values => ExceptT.mk (env.call a values)
  | .unary op _, [a] => ExceptT.mk (pure (op.apply a))
  | .binary op _ right, [a] =>
    match op.settledBy a with
    | some c => return .bool c
    | none => do
      let b ← eval env right
      return .bool b.isTruthy
  | .binary op _ _, [a, b] => ExceptT.mk (pure (op.apply a b))
  | .assign name op _, [a] => do
    let b ← assigned env name op a
    ExceptT.lift (env.assign name b)
    return b
  | .sequence _, values => return values.getLast?.getD .null
  | _, _ => return .null

variable [LawfulMonad m]

private theorem evalLast_eq_evalAll (env : Environment m) (last : Value) (es : List Expr) :
    evalLast env last es =
      evalAll env es >>= fun values => pure (values.getLast?.getD last) := by
  induction es generalizing last with
  | nil => simp [evalLast, evalAll]
  | cons e es ih => simp [evalLast, evalAll, ih, List.getLast?_cons]

/-- Every expression evaluates its operands from left to right and then takes a last step. -/
theorem eval_eq_conclude (env : Environment m) (e : Expr) :
    e.eval env = evalAll env e.operands >>= e.conclude env := by
  cases e with
  | literal | ident | field | index | call | unary | assign =>
    simp [eval, evalAll, operands, conclude]
  | list es => rw [eval, operands]; rfl
  | sequence es => rw [eval, operands, evalLast_eq_evalAll]; rfl
  | binary op left right =>
    cases op with
    | and =>
      simp only [eval, evalAll, operands, BinaryOp.IsLogical, or_false, if_true, bind_assoc,
        pure_bind, reduceCtorEq]
      refine bind_congr fun a => ?_
      rw [conclude, BinaryOp.settledBy]
      split <;> rfl
    | or =>
      simp only [eval, evalAll, operands, BinaryOp.IsLogical, false_or, if_true, bind_assoc,
        pure_bind, reduceCtorEq]
      refine bind_congr fun a => ?_
      rw [conclude, BinaryOp.settledBy]
      split <;> rfl
    | _ => simp [eval, evalAll, operands, conclude, BinaryOp.IsLogical]

end Operands

end Expr

/-- There is a value for each expression that is evaluated. -/
theorem EvaluatesAll.length_eq {es : List Expr} {vars : Bindings Value}
    {done : List (String × Value)} {result : Except EvalError (List Value)} {values : List Value}
    (h : EvaluatesAll vars es done result) (hresult : result = .ok values) :
    values.length = es.length := by
  induction es generalizing vars done result values with
  | nil =>
    cases h
    cases hresult
    rfl
  | cons e es ih =>
    cases h with
    | stop => cases hresult
    | @cons _ _ _ _ _ a others hfirst hrest =>
      cases others with
      | error => cases hresult
      | ok tail =>
        cases hresult
        exact congrArg (· + 1) (ih hrest rfl)

/-- A step over a table completes assignments and ends as the rules have it. -/
def Follows {α : Type} (rules : List (String × Value) → Except EvalError α → Prop)
    (step : ExceptT EvalError (StateM (Bindings Value)) α) (vars : Bindings Value) : Prop :=
  ∃ done result, rules done result ∧ step.run.run vars = (result, vars.assignAll done)

namespace Expr

/-- The environment of `evalFlat`. -/
abbrev flatEnv : Environment (StateM (Bindings Value)) :=
  Environment.flat Environment.refuseCalls

/-- The evaluation of an expression goes by the rules, over every table. -/
def Regular (e : Expr) : Prop :=
  ∀ vars, Follows (Evaluates vars e) (e.eval flatEnv) vars

private theorem follows_evalAll {es : List Expr} (h : ∀ e ∈ es, e.Regular) (vars : Bindings Value) :
    Follows (EvaluatesAll vars es) (evalAll flatEnv es) vars := by
  induction es generalizing vars with
  | nil => exact ⟨[], _, .nil, rfl⟩
  | cons e es ih =>
    rw [List.forall_mem_cons] at h
    obtain ⟨done, result, hhead, hfirst⟩ := h.1 vars
    rw [evalAll]
    cases result with
    | error error => exact ⟨done, _, .stop hhead es, run_bind_of_fst_error hfirst⟩
    | ok a =>
      obtain ⟨more, result, hmore, hothers⟩ := ih h.2 (vars.assignAll done)
      refine ⟨done ++ more, _, .cons hhead hmore, ?_⟩
      rw [run_bind_of_fst_ok hfirst, Bindings.assignAll_append]
      cases result with
      | error error => exact run_bind_of_fst_error hothers
      | ok values => exact run_bind_of_fst_ok hothers

/-- A variable is looked up in the table, which stays as it is. -/
theorem run_valueOf (name : String) (vars : Bindings Value) :
    (valueOf flatEnv name).run.run vars = (valueIn vars name, vars) := by
  have hlookup : (ExceptT.lift (flatEnv.lookup name) : ExceptT EvalError _ _).run.run vars =
      (.ok (vars.find? name), vars) :=
    rfl
  refine (run_bind_of_fst_ok hlookup).trans ?_
  rw [valueIn]
  cases vars.find? name <;> rfl

private theorem run_assigned (name : String) (op : Option BinaryOp) (a : Value)
    (vars : Bindings Value) :
    (assigned flatEnv name op a).run.run vars = (assignedIn vars name op a, vars) := by
  cases op with
  | none => rfl
  | some op =>
    have hvalue := run_valueOf name vars
    rw [assigned, assignedIn]
    cases h : valueIn vars name with
    | error error =>
      rw [h] at hvalue
      exact run_bind_of_fst_error hvalue
    | ok current =>
      rw [h] at hvalue
      exact run_bind_of_fst_ok hvalue

/-- The last step goes by the rules, if the right operand does that a logical operator may yet
have to evaluate. -/
theorem follows_conclude {e : Expr}
    (hright : ∀ op left right, e = .binary op left right → right.Regular) {values : List Value}
    (hvalues : values.length = e.operands.length) (vars : Bindings Value) :
    Follows (Concludes vars e values) (e.conclude flatEnv values) vars := by
  cases e with
  | literal l =>
    obtain rfl := List.length_eq_zero_iff.1 hvalues
    exact ⟨[], _, .literal vars l, rfl⟩
  | list es => exact ⟨[], _, .list vars es values, rfl⟩
  | ident name =>
    obtain rfl := List.length_eq_zero_iff.1 hvalues
    exact ⟨[], _, .ident vars name, run_valueOf name vars⟩
  | field e name =>
    obtain ⟨a, rfl⟩ := List.length_eq_one_iff.1 hvalues
    exact ⟨[], _, .field vars e name a, rfl⟩
  | index e f =>
    obtain ⟨a, b, rfl⟩ := List.length_eq_two.1 hvalues
    exact ⟨[], _, .index vars e f a b, rfl⟩
  | call e es =>
    obtain ⟨a, values, rfl⟩ := List.exists_cons_of_length_eq_add_one hvalues
    exact ⟨[], _, .call vars e es a values, rfl⟩
  | unary op e =>
    obtain ⟨a, rfl⟩ := List.length_eq_one_iff.1 hvalues
    exact ⟨[], _, .unary vars op e a, rfl⟩
  | binary op left right =>
    rw [operands] at hvalues
    split at hvalues
    · next hlogical =>
      obtain ⟨a, rfl⟩ := List.length_eq_one_iff.1 hvalues
      rw [conclude]
      cases h : op.settledBy a with
      | some c => exact ⟨[], _, .settled h, rfl⟩
      | none =>
        obtain ⟨done, result, hrules, hrun⟩ := hright op left right rfl vars
        refine ⟨done, _, .unsettled hlogical h hrules, ?_⟩
        cases result with
        | error error => exact run_bind_of_fst_error hrun
        | ok b => exact run_bind_of_fst_ok hrun
    · next hstrict =>
      obtain ⟨a, b, rfl⟩ := List.length_eq_two.1 hvalues
      exact ⟨[], _, .binary hstrict, rfl⟩
  | assign name op e =>
    obtain ⟨a, rfl⟩ := List.length_eq_one_iff.1 hvalues
    have hassigned := run_assigned name op a vars
    cases h : assignedIn vars name op a with
    | error error =>
      rw [h] at hassigned
      exact ⟨[], _, .unassigned h, run_bind_of_fst_error hassigned⟩
    | ok b =>
      rw [h] at hassigned
      exact ⟨[(name, b)], _, .assign h, run_bind_of_fst_ok hassigned⟩
  | sequence es => exact ⟨[], _, .sequence vars es values, rfl⟩

/-- An evaluation goes by the rules if those of the operands do. -/
theorem Regular.of_operands {e : Expr} (h : ∀ operand ∈ e.operands, operand.Regular)
    (hright : ∀ op left right, e = .binary op left right → right.Regular) : e.Regular := by
  intro vars
  obtain ⟨done, result, hrules, hrun⟩ := follows_evalAll h vars
  rw [eval_eq_conclude]
  cases result with
  | error error => exact ⟨done, _, .operand hrules, run_bind_of_fst_error hrun⟩
  | ok values =>
    obtain ⟨more, result, hfinal, hlast⟩ :=
      follows_conclude hright (hrules.length_eq rfl) (vars.assignAll done)
    refine ⟨done ++ more, result, .finish hrules hfinal, ?_⟩
    rw [run_bind_of_fst_ok hrun, hlast, Bindings.assignAll_append]

mutual

/-- Every expression is evaluated by the rules. -/
theorem regular : ∀ e : Expr, e.Regular
  | .literal _ | .ident _ => .of_operands nofun nofun
  | .list es | .sequence es => .of_operands (regular_of_mem es) nofun
  | .field e _ | .unary _ e | .assign _ _ e =>
    .of_operands (List.forall_mem_singleton.2 (regular e)) nofun
  | .index e f =>
    .of_operands (List.forall_mem_cons.2 ⟨regular e, List.forall_mem_singleton.2 (regular f)⟩) nofun
  | .call e es => .of_operands (List.forall_mem_cons.2 ⟨regular e, regular_of_mem es⟩) nofun
  | .binary op left right => by
    have hleft := regular left
    have hright := regular right
    refine .of_operands ?_ ?_
    · intro operand hoperand
      rw [operands] at hoperand
      split at hoperand <;> simp only [List.mem_cons, List.not_mem_nil, or_false] at hoperand
      · exact hoperand ▸ hleft
      · obtain rfl | rfl := hoperand
        · exact hleft
        · exact hright
    · rintro _ _ _ ⟨⟩
      exact hright

theorem regular_of_mem : ∀ es : List Expr, ∀ e ∈ es, e.Regular
  | [] => nofun
  | e :: es => List.forall_mem_cons.2 ⟨regular e, regular_of_mem es⟩

end

/-- The evaluation of an expression goes by the rules, from every table. -/
theorem exists_evaluates (e : Expr) (vars : Bindings Value) :
    ∃ done, Evaluates vars e done (e.evalFlat vars).1 ∧
      (e.evalFlat vars).2 = vars.assignAll done := by
  obtain ⟨done, result, hrules, hrun⟩ := e.regular vars
  rw [evalFlat, hrun]
  exact ⟨done, hrules, rfl⟩

private theorem evalFlat_eq_of_evaluates {e : Expr} {vars : Bindings Value}
    {done : List (String × Value)} {result : Except EvalError Value}
    (h : Evaluates vars e done result) : e.evalFlat vars = (result, vars.assignAll done) := by
  obtain ⟨done', hrules, htable⟩ := e.exists_evaluates vars
  obtain ⟨rfl, hresult⟩ := hrules.unique h
  exact Prod.ext hresult htable

/-! ### What the rules look at -/

private theorem namesAll_operands_subset (e : Expr) : namesAll e.operands ⊆ e.names := by
  cases e with
  | binary op left right => rw [operands]; split <;> simp [namesAll, names]
  | _ => simp [operands, namesAll, names]

private theorem targetsAll_operands_subset (e : Expr) : targetsAll e.operands ⊆ e.targets := by
  cases e with
  | binary op left right => rw [operands]; split <;> simp [targetsAll, targets]
  | _ => simp [operands, targetsAll, targets]

/-- Two tables give some names the same values. -/
def AgreeOn (names : List String) (vars vars' : Bindings Value) : Prop :=
  ∀ name ∈ names, vars.find? name = vars'.find? name

section AgreeOn

variable {names names' : List String} {vars vars' : Bindings Value}

theorem AgreeOn.mono (h : AgreeOn names vars vars') (hsub : names' ⊆ names) :
    AgreeOn names' vars vars' :=
  fun name hname => h name (hsub hname)

private theorem AgreeOn.assignAll (h : AgreeOn names vars vars') (done : List (String × Value)) :
    AgreeOn names (vars.assignAll done) (vars'.assignAll done) :=
  fun name hname => Bindings.find?_assignAll_congr (h name hname) done

private theorem valueIn_congr {name : String} (h : vars.find? name = vars'.find? name) :
    valueIn vars name = valueIn vars' name := by
  rw [valueIn, h, valueIn]

private theorem assignedIn_congr {name : String} (h : vars.find? name = vars'.find? name)
    (op : Option BinaryOp) (a : Value) :
    assignedIn vars name op a = assignedIn vars' name op a := by
  cases op with
  | none => rfl
  | some op => rw [assignedIn, assignedIn, valueIn_congr h]

end AgreeOn

end Expr

open TextTemplate.Expr

mutual

/-- An evaluation goes the same way over every table with the same values of the names in the
expression. -/
theorem Evaluates.congr {vars vars' : Bindings Value} {e : Expr} {done : List (String × Value)}
    {result : Except EvalError Value} :
    Evaluates vars e done result → AgreeOn e.names vars vars' → Evaluates vars' e done result
  | .operand stops, h => .operand (stops.congr (h.mono e.namesAll_operands_subset))
  | .finish operands last, h =>
    .finish (operands.congr (h.mono e.namesAll_operands_subset)) (last.congr (h.assignAll _))

theorem EvaluatesAll.congr {vars vars' : Bindings Value} {es : List Expr}
    {done : List (String × Value)} {result : Except EvalError (List Value)} :
    EvaluatesAll vars es done result → AgreeOn (namesAll es) vars vars' →
      EvaluatesAll vars' es done result
  | .nil, _ => .nil
  | .cons first others, h =>
    .cons (first.congr (h.mono (List.subset_append_left _ _)))
      (others.congr ((h.mono (List.subset_append_right _ _)).assignAll _))
  | .stop first es, h => .stop (first.congr (h.mono (List.subset_append_left _ _))) es

theorem Concludes.congr {vars vars' : Bindings Value} {e : Expr} {values : List Value}
    {done : List (String × Value)} {result : Except EvalError Value} :
    Concludes vars e values done result → AgreeOn e.names vars vars' →
      Concludes vars' e values done result
  | .literal _ l, _ => .literal vars' l
  | .list _ es values, _ => .list vars' es values
  | .ident _ name, h => by
    rw [valueIn_congr (h name (List.mem_singleton_self name))]
    exact .ident vars' name
  | .field _ e name a, _ => .field vars' e name a
  | .index _ e f a b, _ => .index vars' e f a b
  | .call _ e es a values, _ => .call vars' e es a values
  | .unary _ op e a, _ => .unary vars' op e a
  | .binary strict, _ => .binary strict
  | .settled settles, _ => .settled settles
  | .unsettled logical unsettled right, h =>
    .unsettled logical unsettled (right.congr (h.mono (List.subset_append_right _ _)))
  | .assign assigned, h =>
    .assign ((assignedIn_congr (h _ List.mem_cons_self) _ _).symm.trans assigned)
  | .unassigned fails, h =>
    .unassigned ((assignedIn_congr (h _ List.mem_cons_self) _ _).symm.trans fails)
  | .sequence _ es values, _ => .sequence vars' es values

end

mutual

/-- Only targets of an expression are assigned to. -/
theorem Evaluates.subset_targets {vars : Bindings Value} {e : Expr} {done : List (String × Value)}
    {result : Except EvalError Value} :
    Evaluates vars e done result → done.map Prod.fst ⊆ e.targets
  | .operand stops => List.Subset.trans stops.subset_targets e.targetsAll_operands_subset
  | .finish operands last => by
    rw [List.map_append, List.append_subset]
    exact ⟨List.Subset.trans operands.subset_targets e.targetsAll_operands_subset,
      last.subset_targets⟩

theorem EvaluatesAll.subset_targets {vars : Bindings Value} {es : List Expr}
    {done : List (String × Value)} {result : Except EvalError (List Value)} :
    EvaluatesAll vars es done result → done.map Prod.fst ⊆ targetsAll es
  | .nil => List.nil_subset _
  | .cons first others => by
    rw [List.map_append, List.append_subset]
    exact ⟨List.subset_append_of_subset_left _ first.subset_targets,
      List.subset_append_of_subset_right _ others.subset_targets⟩
  | .stop first es => List.subset_append_of_subset_left _ first.subset_targets

theorem Concludes.subset_targets {vars : Bindings Value} {e : Expr} {values : List Value}
    {done : List (String × Value)} {result : Except EvalError Value} :
    Concludes vars e values done result → done.map Prod.fst ⊆ e.targets
  | .unsettled _ _ right => List.subset_append_of_subset_right _ right.subset_targets
  | .assign _ => List.cons_subset.2 ⟨List.mem_cons_self, List.nil_subset _⟩
  | .literal .. | .list .. | .ident .. | .field .. | .index .. | .call .. | .unary ..
  | .binary _ | .settled _ | .unassigned _ | .sequence .. => List.nil_subset _

end

/-! ### What an evaluation depends on and what it changes -/

/-- An expression is evaluated the same way over tables that agree on the names in it, and they
agree on these afterwards, whether it has a value or fails. Variables that are no targets of its
assignments keep their values; without targets the table stays as it is, and a second evaluation
goes like the first. The table afterwards is the table before with the assignments carried out that
the rules list, and no other, in their order. -/
theorem evaluation_confined_to_names (e : Expr) :
    (∀ vars vars' : Bindings Value, (∀ name ∈ e.names, vars.find? name = vars'.find? name) →
      (e.evalFlat vars).1 = (e.evalFlat vars').1 ∧
        ∀ name ∈ e.names, (e.evalFlat vars).2.find? name = (e.evalFlat vars').2.find? name) ∧
      (∀ (vars : Bindings Value), ∀ name ∉ e.targets,
        (e.evalFlat vars).2.find? name = vars.find? name) ∧
      (e.targets = [] → ∀ vars : Bindings Value,
        (e.evalFlat vars).2 = vars ∧ e.evalFlat (e.evalFlat vars).2 = e.evalFlat vars) ∧
      ∀ vars : Bindings Value, ∃ done, Evaluates vars e done (e.evalFlat vars).1 ∧
        (∀ done' result, Evaluates vars e done' result →
          done' = done ∧ result = (e.evalFlat vars).1) ∧
        (e.evalFlat vars).2 = vars.assignAll done := by
  refine ⟨?alike, ?others, ?pure, ?order⟩
  case alike =>
    intro vars vars' hagree
    obtain ⟨done, hrules, htable⟩ := e.exists_evaluates vars
    have heval' := evalFlat_eq_of_evaluates (hrules.congr hagree)
    rw [htable, heval']
    exact ⟨rfl, AgreeOn.assignAll hagree done⟩
  case others =>
    intro vars name hname
    obtain ⟨done, hrules, htable⟩ := e.exists_evaluates vars
    rw [htable]
    exact Bindings.find?_assignAll_of_notMem (fun h => hname (hrules.subset_targets h)) vars
  case pure =>
    intro htargets vars
    obtain ⟨done, hrules, htable⟩ := e.exists_evaluates vars
    have hdone : done = [] := by
      simpa [htargets] using hrules.subset_targets
    have hsame : (e.evalFlat vars).2 = vars := by rw [htable, hdone]; rfl
    exact ⟨hsame, congrArg e.evalFlat hsame⟩
  case order =>
    intro vars
    obtain ⟨done, hrules, htable⟩ := e.exists_evaluates vars
    exact ⟨done, hrules, fun done' result hrules' => hrules'.unique hrules, htable⟩

/-- After `x = 1; y` has failed for want of `y`, the variable `x` is set, whatever the table held
for another name, and that name keeps its value. -/
theorem evaluation_confined_to_names_failing :
    let e : Expr := .sequence [.assign "x" none (.literal (.int 1)), .ident "y"]
    let vars : Bindings Value := [("w", .null)]
    (∀ name ∈ e.names, vars.find? name = Bindings.find? name []) ∧
      (e.evalFlat vars).1 = .error (.unresolvable "y") ∧
      (e.evalFlat vars).1 = (e.evalFlat []).1 ∧
      (e.evalFlat vars).2.find? "x" = some (.int 1) ∧
      (e.evalFlat vars).2.find? "x" = (e.evalFlat []).2.find? "x" ∧
      "w" ∉ e.targets ∧ (e.evalFlat vars).2.find? "w" = vars.find? "w" := by
  intro e vars
  have hagree : ∀ name ∈ e.names, vars.find? name = Bindings.find? name [] := by
    intro name hname
    obtain rfl | rfl : name = "x" ∨ name = "y" := by
      simpa [e, Expr.names, Expr.namesAll] using hname
    all_goals rfl
  have htargets : "w" ∉ e.targets := by decide +kernel
  obtain ⟨halike, hothers, -, -⟩ := evaluation_confined_to_names e
  obtain ⟨hresult, htable⟩ := halike vars [] hagree
  exact ⟨hagree, rfl, hresult, rfl, htable "x" List.mem_cons_self, htargets,
    hothers vars "w" htargets⟩

end TextTemplate
