import TextTemplate.Expr.Eval
import TextTemplate.Source.Span

/-!
# Expressions in a template

A directive carries its expressions as spans of the template's source. In compiled mode an
expression is read when the template is compiled; in interpreted mode it is read each time it is
evaluated. Either way the offset of a malformed expression is counted in the template's source.
-/

namespace TextTemplate

/-- When the expressions of a template are read: once, or on every evaluation. -/
inductive Mode where
  | compiled
  | interpreted
deriving DecidableEq, Inhabited

/-- An expression of a template: read already, or to be read. -/
inductive Slot where
  | parsed (span : Span) (expr : Expr)
  | raw (span : Span)

namespace Slot

/-- The expression that a span of the source spells, with offsets counted in the source. -/
def read (source : String) (span : Span) : Except EvalError Expr :=
  (Expr.parse (span.slice source)).mapError (EvalError.shift span.start)

/-- The expression of a directive, read now if the mode asks for it. -/
def ofSpan (mode : Mode) (source : String) (span : Span) : Except EvalError Slot :=
  match mode with
  | .compiled => (read source span).map (parsed span)
  | .interpreted => .ok (raw span)

/-- Evaluates the expression. -/
def eval {m : Type → Type} [Monad m] (env : Environment m) (source : String) :
    Slot → ExceptT EvalError m Value
  | parsed _ expr => expr.eval env
  | raw span => ExceptT.adapt (EvalError.shift span.start) (evaluateText env (span.slice source))

end Slot

end TextTemplate
