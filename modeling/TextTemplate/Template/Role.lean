import TextTemplate.Error.Message
import TextTemplate.Template.Action

/-!
# The roles of directives

What a directive is in a template: it opens a block, stands alone, goes on with another branch, or
ends a block. Its name decides the role, and its body is read accordingly: as an expression, as a
target with an expression to evaluate first, or as the header of a loop.

## Main definitions

* `Compiler` — how templates are compiled: the mode and the custom directives.
* `Directive.slot`, `Directive.targetAndPre`, `Directive.loopBindings` — readers of bodies.
* `Directive.branchCondition`, `Directive.ending` — what a directive that goes on with a block or
  ends it adds to the block.
* `Directive.role` — the role of a directive, or what is wrong with it.
-/

namespace TextTemplate

/-- How templates are compiled. -/
structure Compiler where
  mode : Mode
  extensions : Extensions

/-- The role of a directive in a template. -/
inductive Role where
  | opens (opener : Opener)
  | standsAlone (action : Action)
  | goesOn
  | ends

namespace Directive

/-- An error that concerns the directive. -/
def error (d : Directive) (fault : CompileFault) : CompileError :=
  ⟨d.position, d.name, none, fault⟩

variable (compiler : Compiler) (source : String) (d : Directive)

/-- The expression that a part of the directive's body spells, blanks at its ends apart. -/
def slot (span : Span) : Except CompileError Slot :=
  (Slot.ofSpan compiler.mode source (span.trim source)).mapError fun e =>
    d.error (.expression e.message)

/-- The target of an include and, behind the first top-level semicolon, an expression to evaluate
before it. -/
def targetAndPre : Except CompileError (Slot × Option Slot) := do
  match splitTopLevel source d.body ';' with
  | [] => return (← d.slot compiler source d.body, none)
  | target :: rest =>
    let pre := rest.head?.map fun second => (⟨second.start, d.body.stop⟩ : Span)
    let target ← d.slot compiler source target
    match pre.filter fun pre => !pre.onlyBlanks source with
    | none => return (target, none)
    | some pre => return (target, some (← d.slot compiler source pre))

/-- Whether a text can be the variable of a loop. -/
def isLoopVariable (name : List Char) : Bool :=
  name.head?.any isNameStart && name.all isNamePart

/-- Reads one part of the header of a loop: a variable, a colon, and an expression. -/
def loopBinding (part : Span) : Except CompileError LoopBinding := do
  match splitTopLevel source part ':' with
  | [before, after] =>
    let name := (before.trim source).slice source
    if !isLoopVariable name.toList then
      throw (d.error (.malformedLoop s!"invalid loop variable '{name}'"))
    if after.onlyBlanks source then
      throw (d.error (.malformedLoop s!"missing source expression for '{name}'"))
    return ⟨name, ← d.slot compiler source after⟩
  | _ =>
    let text := trim (part.slice source)
    throw (d.error (.malformedLoop s!"expected exactly one ':' in '{text}'"))

/-- Reads the header of a loop: such parts, separated by commas. -/
def loopBindings : Except CompileError (List LoopBinding) :=
  if d.body.onlyBlanks source then
    .error (d.error (.malformedLoop "expected at least one 'variable : source' binding"))
  else
    (splitTopLevel source d.body ',').mapM (d.loopBinding compiler source)

/-- Makes the custom directive of this name. -/
def makeCustom : Except CompileError Custom :=
  match compiler.extensions.find? d.name with
  | none => .error (d.error (.unknownDirective d.name))
  | some kind =>
    (kind.make (d.body.slice source)).mapError fun reason => d.error (.custom d.name reason)

/-- The condition of the branch that the directive opens. An `@else` with a blank body has none. -/
def branchCondition : Except CompileError (Option Slot) :=
  if d.name = "else" ∧ d.body.onlyBlanks source = true then .ok none
  else some <$> d.slot compiler source d.body

/-- The opener of a block that the directive ends. The body of the directive that ends a loop is the
loop's separator, unless it is blank. -/
def ending : Opener → Except CompileError Opener
  | .loop bindings _ =>
    if d.body.onlyBlanks source then .ok (.loop bindings none)
    else (fun s => .loop bindings (some s)) <$> d.slot compiler source d.body
  | opener => .ok opener

/-- The role of a directive. -/
def role : Except CompileError Role := do
  match d.name with
  | "if" => return .opens (.conditional (some (← d.slot compiler source d.body)))
  | "else" | "elseif" => return .goesOn
  | "end" => return .ends
  | "foreach" => return .opens (.loop (← d.loopBindings compiler source) none)
  | "declare" => return .opens (.declare (← d.slot compiler source d.body))
  | "include" =>
    let (target, pre) ← d.targetAndPre compiler source
    return .standsAlone (.includeFile target pre)
  | "includeNamed" =>
    let (target, pre) ← d.targetAndPre compiler source
    return .standsAlone (.includeNamed target pre)
  | "" => return .standsAlone (.expression (← d.slot compiler source d.body))
  | "eval" => return .standsAlone (.eval (← d.slot compiler source d.body))
  | "code" => return .standsAlone (.code (← d.slot compiler source d.body))
  | "comment" => return .standsAlone .comment
  | _ =>
    let custom ← d.makeCustom compiler source
    return if custom.opensBlock then .opens (.custom custom) else .standsAlone (.custom custom)

end Directive

end TextTemplate
