import TextTemplate.Expr.Parse

/-!
# The values of expressions

An expression is evaluated in an environment that knows the variables, accepts assignments and
carries out calls. Operands are evaluated from left to right, and the first error ends the
evaluation; what has been assigned before it stays assigned.

## Main definitions

* `Environment` — what an expression needs from its surroundings.
* `Expr.eval` — the value of an expression.
* `evaluateText` — reads a text and evaluates it.
-/

namespace TextTemplate

/-- What an expression needs from its surroundings. -/
structure Environment (m : Type → Type) where
  lookup : String → m (Option Value)
  assign : String → Value → m Unit
  call : Value → List Value → m (Except EvalError Value)

namespace Expr

variable {m : Type → Type} [Monad m]

/-- The value of a variable, which has to have one. -/
def valueOf (env : Environment m) (name : String) : ExceptT EvalError m Value := do
  match ← env.lookup name with
  | some value => return value
  | none => throw (.unresolvable name)

/-- The value to assign: the new one, or the old one combined with it. -/
def assigned (env : Environment m) (name : String) (op : Option BinaryOp) (value : Value) :
    ExceptT EvalError m Value := do
  match op with
  | none => return value
  | some op =>
    let current ← valueOf env name
    ExceptT.mk (pure (op.apply current value))

mutual

/-- The value of an expression. -/
def eval (env : Environment m) : Expr → ExceptT EvalError m Value
  | .literal l => return l.value
  | .list items => return .list (← evalAll env items)
  | .ident name => valueOf env name
  | .field target name => do
    let target ← eval env target
    ExceptT.mk (pure (target.select name))
  | .index target place => do
    let target ← eval env target
    let place ← eval env place
    ExceptT.mk (pure (target.index place))
  | .call callee args => do
    let callee ← eval env callee
    let args ← evalAll env args
    ExceptT.mk (env.call callee args)
  | .unary op operand => do
    let operand ← eval env operand
    ExceptT.mk (pure (op.apply operand))
  | .binary .and left right => do
    let left ← eval env left
    if left.isTruthy then
      let right ← eval env right
      return .bool right.isTruthy
    else
      return .bool false
  | .binary .or left right => do
    let left ← eval env left
    if left.isTruthy then
      return .bool true
    else
      let right ← eval env right
      return .bool right.isTruthy
  | .binary op left right => do
    let left ← eval env left
    let right ← eval env right
    ExceptT.mk (pure (op.apply left right))
  | .assign name op value => do
    let value ← eval env value
    let value ← assigned env name op value
    ExceptT.lift (env.assign name value)
    return value
  | .sequence statements => evalLast env .null statements

/-- The values of a list of expressions, from left to right. -/
def evalAll (env : Environment m) : List Expr → ExceptT EvalError m (List Value)
  | [] => return []
  | e :: es => do
    let value ← eval env e
    let values ← evalAll env es
    return value :: values

/-- The value of the last of the statements, or the given one if there are none. -/
def evalLast (env : Environment m) : Value → List Expr → ExceptT EvalError m Value
  | last, [] => return last
  | _, e :: es => do
    let value ← eval env e
    evalLast env value es

end

end Expr

/-- Reads a text and evaluates the expression that it spells. -/
def evaluateText {m : Type → Type} [Monad m] (env : Environment m) (source : String) :
    ExceptT EvalError m Value := do
  let expr ← ExceptT.mk (pure (Expr.parse source))
  expr.eval env

end TextTemplate
