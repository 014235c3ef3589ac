import TextTemplate.File.Path
import TextTemplate.Source.Position

/-!
# Errors

Why a template does not compile, why an expression has no value, and why a render stops. An
expression can fail because a block that it called failed, and a render can fail because an
expression did, so the kinds of error refer to each other. `TemplateError.annotate` gives a render
error the place of the directive that failed; the innermost place is kept.

## Main definitions

* `CompileFault`, `CompileError` — a template that does not compile.
* `EvalError` — an expression without a value.
* `RenderFault`, `TemplateError` — a render that stops, and any failure of the library.
-/

namespace TextTemplate

/-- What is wrong with a template. -/
inductive CompileFault where
  | unknownDirective (name : String)
  | unclosedBlock (name : String)
  | unexpectedEnd
  | unexpectedElse (name : String)
  | unterminated (opener closer : Char)
  | malformedLoop (reason : String)
  | expression (reason : String)
  | custom (name reason : String)
deriving DecidableEq

/-- A template that does not compile: what is wrong, the place and name of the directive concerned,
and the file that the template was read from. -/
structure CompileError where
  position : Position
  directive : String
  path : Option Path
  fault : CompileFault
deriving DecidableEq

mutual

/-- Why an expression has no value. -/
inductive EvalError where
  | malformed (offset : Nat) (reason : String)
  | unresolvable (name : String)
  | operator (op left right : String)
  | unary (op operand : String)
  | divisionByZero
  | overflow
  | noField (field found : String)
  | index (found index : String)
  | outOfBounds (index : Int64) (length : Nat)
  | notCallable (found : String)
  | arity (callee : String) (expected found : Nat)
  | nested (error : TemplateError)

/-- Why a render stops. -/
inductive RenderFault where
  | unsupportedIterable (found : String)
  | includeNotFound (path : Path)
  | includeUnreadable (path : Path) (reason : String)
  | missingRegistry (name : String)
  | templateNotFound (name : String)
  | recursionLimit (limit : Nat)
  | expression (error : EvalError)
  | output (reason : String)
  | custom (name reason : String)

/-- Any failure: of compiling, of rendering, of the set of templates, of reading a source. -/
inductive TemplateError where
  | compile (error : CompileError)
  | render (fault : RenderFault) (position : Option Position) (directive : Option String)
  | templateExists (name : String)
  | missingTemplate (name : String)
  | unreadable (path : Option Path) (reason : String)

end

deriving instance DecidableEq for EvalError, RenderFault, TemplateError

namespace RenderFault

/-- The failure of a render with no place yet. -/
def toError (fault : RenderFault) : TemplateError :=
  .render fault none none

end RenderFault

namespace EvalError

/-- The failure of a render whose expression failed; the failure of a called block stays what it
is. -/
def toTemplateError : EvalError → TemplateError
  | .nested error => error
  | error => (RenderFault.expression error).toError

/-- The error with the offset of a malformed expression counted from `base` bytes further left. -/
def shift (base : Nat) : EvalError → EvalError
  | .malformed offset reason => .malformed (offset + base) reason
  | error => error

end EvalError

namespace TemplateError

/-- Gives a render error without a place the place and name of a directive. -/
def annotate (position : Position) (directive : String) : TemplateError → TemplateError
  | .render fault none _ => .render fault (some position) (some directive)
  | error => error

@[simp] theorem annotate_annotate (p q : Position) (d e : String) (error : TemplateError) :
    (error.annotate p d).annotate q e = error.annotate p d := by
  cases error with
  | render fault position directive => cases position <;> rfl
  | compile | templateExists | missingTemplate | unreadable => rfl

end TemplateError

end TextTemplate
