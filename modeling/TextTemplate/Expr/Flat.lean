import TextTemplate.Expr.Eval

/-!
# Flat environments

An environment whose variables stand in one table, and an environment that also keeps a record of
what an expression asked for. How calls are answered is a parameter.

## Main definitions

* `Environment.flat` — variables in a table.
* `Environment.recorded` — an environment that records lookups, assignments and calls.
-/

namespace TextTemplate.Environment

/-- An environment whose variables stand in one table. -/
def flat (answer : Value → List Value → Except EvalError Value) :
    Environment (StateM (Bindings Value)) where
  lookup name := return (← get).find? name
  assign name value := modify (Bindings.insert name value)
  call callee args := return answer callee args

/-- The answer that refuses every call. -/
def refuseCalls (callee : Value) (_ : List Value) : Except EvalError Value :=
  .error (.notCallable callee.typeName)

/-- What an expression asked its environment for. -/
inductive Event where
  | lookup (name : String)
  | assign (name : String) (value : Value)
  | call (callee : Value) (args : List Value)

/-- An environment that behaves like the given one and records what it is asked, the latest
first. -/
def recorded {σ : Type} (env : Environment (StateM σ)) :
    Environment (StateM (σ × List Event)) where
  lookup name := record (.lookup name) (env.lookup name)
  assign name value := record (.assign name value) (env.assign name value)
  call callee args := record (.call callee args) (env.call callee args)
where
  record {α : Type} (event : Event) (action : StateM σ α) : StateM (σ × List Event) α :=
    fun (s, events) =>
      let (a, s) := action.run s
      (a, (s, event :: events))

end TextTemplate.Environment
